import GridMq.Library.Regroup
import GridMq.Transports.Base64Bounds

set_option autoImplicit false

/-!
# Decoding of what was encoded (`src/transports/utils/base64.c`)

Either function makes digits of one width into digits of the other, and carries the bits that are
left in its word.  The encoder fills up its last digit with zeros, which are less than a byte.
-/

namespace GridMq.Transports.Base64

open GridMq.Library

/-! ## The word -/

/-- A digit is shifted into the word. -/
theorem toNat_shiftIn (v : BitVec 32) (c : UInt8) {k rem : Nat} (hc : c.toNat < 2 ^ k)
    (hk : rem + k ≤ 32) :
    (v <<< k ||| c.toBitVec.setWidth 32).toNat % 2 ^ (rem + k) =
      v.toNat % 2 ^ rem * 2 ^ k + c.toNat := by
  have hset : (c.toBitVec.setWidth 32).toNat = c.toNat := by
    rw [BitVec.toNat_setWidth]
    exact Nat.mod_eq_of_lt (Nat.lt_of_lt_of_le hc (Nat.pow_le_pow_right Nat.two_pos (by omega)))
  have hmul : v.toNat <<< k % 2 ^ 32 = (v.toNat % 2 ^ (32 - k)) <<< k := by
    rw [Nat.shiftLeft_eq, Nat.shiftLeft_eq, ← Nat.mul_mod_mul_right, ← Nat.pow_add,
      Nat.sub_add_cancel (by omega)]
  have hmod : v.toNat % 2 ^ (32 - k) % 2 ^ rem = v.toNat % 2 ^ rem :=
    Nat.mod_mod_of_dvd _ (Nat.pow_dvd_pow 2 (by omega))
  rw [BitVec.toNat_or, BitVec.toNat_shiftLeft, hset, hmul, ← Nat.shiftLeft_add_eq_or_of_lt hc,
    Nat.shiftLeft_eq, Nat.pow_add, Nat.mul_comm (2 ^ rem), Nat.mul_comm _ (2 ^ k), Nat.mod_mul,
    Nat.mul_add_mod, Nat.mod_eq_of_lt hc, Nat.mul_add_div (Nat.two_pow_pos k),
    Nat.div_eq_of_lt hc, Nat.add_zero, hmod, Nat.mul_comm (2 ^ k), Nat.add_comm]

/-- The digit that is shifted out of the word. -/
theorem toNat_shiftOut (v : BitVec 32) (k rem : Nat) :
    v.toNat % 2 ^ (rem + k) / 2 ^ rem = (v >>> rem).toNat % 2 ^ k := by
  rw [BitVec.toNat_ushiftRight, Nat.shiftRight_eq_div_pow, Nat.pow_add,
    Nat.mod_mul_right_div_self]

/-- The bits that stay in the word. -/
theorem toNat_shiftRest (v : BitVec 32) (k rem : Nat) :
    v.toNat % 2 ^ (rem + k) % 2 ^ rem = v.toNat % 2 ^ rem :=
  Nat.mod_mod_of_dvd _ (Nat.pow_dvd_pow 2 (Nat.le_add_right _ _))

theorem and_sixBits (w : BitVec 32) : (w &&& 63).toNat = w.toNat % 2 ^ 6 := by
  rw [BitVec.toNat_and]
  exact Nat.and_two_pow_sub_one_eq_mod _ 6

theorem and_byte (w : BitVec 32) :
    UInt8.ofBitVec ((w &&& 255).setWidth 8) = UInt8.ofNat (w.toNat % 2 ^ 8) := by
  have hand : (w &&& 255).toNat = w.toNat % 2 ^ 8 := by
    rw [BitVec.toNat_and]
    exact Nat.and_two_pow_sub_one_eq_mod _ 8
  apply UInt8.toNat_inj.mp
  rw [UInt8.toNat_ofBitVec, BitVec.toNat_setWidth, hand, UInt8.toNat_ofNat']

/-! ## The buffer -/

/-- A buffer of which the beginning is written. -/
structure Coding.Written (buf : List UInt8) (s : Coding) (t : List UInt8) : Prop where
  io : s.io = t.length
  out : s.out = t ++ buf.drop t.length
  fits : t.length ≤ buf.length

theorem written_start (buf : List UInt8) : Coding.Written buf { out := buf } [] :=
  ⟨rfl, rfl, Nat.zero_le _⟩

theorem Coding.Written.length {buf t : List UInt8} {s : Coding} (h : s.Written buf t) :
    s.out.length = buf.length := by
  have hfits := h.fits
  rw [h.out, List.length_append, List.length_drop]
  omega

/-- A write in the middle of a buffer. -/
theorem set_length (t buf : List UInt8) (ch : UInt8) (h : t.length < buf.length) :
    (t ++ buf.drop t.length).set t.length ch = t ++ ch :: buf.drop (t.length + 1) := by
  rw [List.set_append_right _ _ (Nat.le_refl _), Nat.sub_self, List.drop_eq_getElem_cons h,
    List.set_cons_zero]

/-- One more character is written. -/
theorem Coding.Written.emit {buf t : List UInt8} {s : Coding} (h : s.Written buf t) (ch : UInt8)
    (hroom : t.length < buf.length) (hsmall : t.length + 1 < 2 ^ 32) :
    ∃ s', s.emit ch = .ok s' ∧ s'.Written buf (t ++ [ch]) ∧ s'.ii = s.ii ∧ s'.rem = s.rem ∧
      s'.v = s.v := by
  have hlt : s.io < s.out.length := by
    rw [h.length, h.io]
    exact hroom
  refine ⟨_, Coding.emit_lt ch hlt, ⟨?_, ?_, ?_⟩, rfl, rfl, rfl⟩
  · rw [List.length_append, List.length_singleton]
    show increment s.io = t.length + 1
    rw [h.io]
    exact Nat.mod_eq_of_lt hsmall
  · show s.out.set s.io ch = _
    rw [h.io, h.out, set_length t buf ch hroom, List.append_assoc, List.length_append,
      List.length_singleton]
    rfl
  · rw [List.length_append, List.length_singleton]
    exact hroom

/-- What was taken, what was made of it and what is carried. -/
structure Coding.Has (m n : Nat) (char : Nat → UInt8) (buf : List UInt8) (s : Coding)
    (xs ys : List Nat) : Prop where
  written : s.Written buf (ys.map char)
  carries : Carries m n xs ys s.rem (s.v.toNat % 2 ^ s.rem)

theorem has_start (m n : Nat) (char : Nat → UInt8) (buf : List UInt8) :
    Coding.Has m n char buf { out := buf } [] [] where
  written := written_start buf
  carries := Carries.start m n

namespace Coding.Has

variable {m n : Nat} {char : Nat → UInt8} {buf : List UInt8} {s : Coding} {xs ys : List Nat}

/-- One more digit is taken. -/
theorem shiftIn (h : s.Has m n char buf xs ys) {c : UInt8} (hc : c.toNat < 2 ^ m)
    (hm : s.rem + m ≤ 32) :
    Coding.Has m n char buf
      { s with v := s.v <<< m ||| c.toBitVec.setWidth 32, rem := s.rem + m }
      (xs ++ [c.toNat]) ys where
  written := ⟨h.written.io, h.written.out, h.written.fits⟩
  carries := by
    simp only
    rw [toNat_shiftIn s.v c hc hm]
    exact h.carries.take hc

/-- One more digit is written. -/
theorem shiftOut (h : s.Has m n char buf xs ys) {rem : Nat} (hrem : s.rem = rem + n)
    (hroom : ys.length < buf.length) (hsmall : ys.length + 1 < 2 ^ 32) :
    ∃ s' ys', Coding.emit { s with rem := rem } (char ((s.v >>> rem).toNat % 2 ^ n)) = .ok s' ∧
      s'.ii = s.ii ∧ s'.rem = rem ∧ s'.Has m n char buf xs ys' := by
  have hwritten : Coding.Written buf { s with rem := rem } (ys.map char) :=
    ⟨h.written.io, h.written.out, h.written.fits⟩
  obtain ⟨s', hemit, hwritten', hii, hrem', hv⟩ := hwritten.emit
    (char ((s.v >>> rem).toNat % 2 ^ n)) (by rwa [List.length_map]) (by rwa [List.length_map])
  have hcarries := h.carries
  rw [hrem] at hcarries
  have hemitted := hcarries.emit
  rw [toNat_shiftOut, toNat_shiftRest] at hemitted
  refine ⟨s', ys ++ [(s.v >>> rem).toNat % 2 ^ n], hemit, hii, hrem', ⟨?_, ?_⟩⟩
  · rw [List.map_append, List.map_singleton]
    exact hwritten'
  · rw [hrem', hv]
    exact hemitted

end Coding.Has

/-! ## The encoder -/

/-- The character of a digit. -/
def digitChar (d : Nat) : UInt8 := encodeMap.getD d 0

section Encode

variable {buf : List UInt8} {s : Coding} {xs ys : List Nat}

/-- The digits that are there are written. -/
theorem Coding.Has.encodeGroups (hroom : 8 * xs.length ≤ 6 * buf.length)
    (hsmall : xs.length < 2 ^ 30) (turns : Nat) :
    ∀ (s : Coding) (ys : List Nat), s.Has 8 6 digitChar buf xs ys → s.rem < 6 * (turns + 1) →
      ∃ s' ys', Coding.encodeGroups turns s = .ok s' ∧ s'.ii = s.ii ∧ s'.rem < 6 ∧
        s'.Has 8 6 digitChar buf xs ys' := by
  induction turns with
  | zero =>
    intro s ys h hrem
    exact ⟨s, ys, rfl, rfl, by omega, h⟩
  | succ turns ih =>
    intro s ys h hrem
    rw [Coding.encodeGroups]
    by_cases hfull : s.rem ≥ 6
    · rw [if_pos hfull]
      simp only
      rw [Coding.emitDigit_eq, and_sixBits]
      have hbits := h.carries.bits
      obtain ⟨s₁, ys₁, hemit, hii, hrem₁, h₁⟩ := h.shiftOut
        (show s.rem = s.rem - 6 + 6 by omega) (by omega) (by omega)
      obtain ⟨s₂, ys₂, hgroups, hii₂, hrem₂, h₂⟩ := ih s₁ ys₁ h₁ (by omega)
      refine ⟨s₂, ys₂, ?_, hii₂.trans hii, hrem₂, h₂⟩
      rw [← digitChar, hemit, ok_bind, hgroups]
    · rw [if_neg hfull]
      exact ⟨s, ys, rfl, rfl, by omega, h⟩

/-- The loop takes all bytes. -/
theorem Coding.Has.encodeLoop {x : List UInt8} (hroom : 8 * x.length ≤ 6 * buf.length)
    (hsmall : x.length < 2 ^ 30) (rest : List UInt8) :
    ∀ (taken : List UInt8) (s : Coding) (ys : List Nat), x = taken ++ rest →
      s.ii = taken.length → s.rem < 6 → s.Has 8 6 digitChar buf (taken.map UInt8.toNat) ys →
      ∃ s' ys', (∀ fuel, rest.length < fuel → Base64.encodeLoop x fuel s = some (.ok s')) ∧
        s'.rem < 6 ∧ s'.Has 8 6 digitChar buf (x.map UInt8.toNat) ys' := by
  induction rest with
  | nil =>
    intro taken s ys hx hii hrem h
    rw [List.append_nil] at hx
    subst hx
    refine ⟨s, ys, fun fuel hfuel => ?_, hrem, h⟩
    obtain ⟨fuel, rfl⟩ : ∃ k, fuel = k + 1 := ⟨fuel - 1, by omega⟩
    rw [Base64.encodeLoop, hii, List.getElem?_length]
  | cons ch rest ih =>
    intro taken s ys hx hii hrem h
    have hch : x[s.ii]? = some ch := by
      rw [hx, hii, List.getElem?_append_right (Nat.le_refl _), Nat.sub_self]
      rfl
    have hlength : taken.length + 1 ≤ x.length := by
      rw [hx, List.length_append, List.length_cons]
      omega
    have hmap : (taken.map UInt8.toNat ++ [ch.toNat]).length = taken.length + 1 := by
      rw [List.length_append, List.length_map, List.length_singleton]
    obtain ⟨s₁, ys₁, hgroups, hii₁, hrem₁, h₁⟩ := Coding.Has.encodeGroups (by rw [hmap]; omega)
      (by rw [hmap]; omega) (s.rem + 8) _ ys (h.shiftIn ch.toNat_lt (by omega))
      (by simp only; omega)
    have hsame : s₁.ii = taken.length := hii₁.trans hii
    have hnext := ih (taken ++ [ch]) { s₁ with ii := increment s₁.ii } ys₁
      (by rw [hx, List.append_assoc, List.singleton_append])
      (by
        rw [List.length_append, List.length_singleton, ← hsame]
        exact Nat.mod_eq_of_lt (by omega))
      hrem₁
      ⟨⟨h₁.written.io, h₁.written.out, h₁.written.fits⟩, by
        rw [List.map_append, List.map_singleton]
        exact h₁.carries⟩
    obtain ⟨s₂, ys₂, hloop, hrem₂, h₂⟩ := hnext
    refine ⟨s₂, ys₂, fun fuel hfuel => ?_, hrem₂, h₂⟩
    obtain ⟨fuel, rfl⟩ : ∃ k, fuel = k + 1 := ⟨fuel - 1, by omega⟩
    rw [Base64.encodeLoop, hch]
    simp only
    rw [Coding.encodeByte]
    simp only
    rw [hgroups]
    exact hloop fuel (Nat.lt_of_succ_lt_succ hfuel)

/-- The last digit is filled up, and the digits are then as many as the bytes need. -/
theorem Coding.Has.encodeRest (h : s.Has 8 6 digitChar buf xs ys) (hrem : s.rem < 6)
    (hxs : ∀ x ∈ xs, x < 2 ^ 8)
    (hlast : 8 * xs.length < 6 * buf.length) (hsmall : xs.length < 2 ^ 30) :
    ∃ s' ds rem, s.encodeRest = .ok s' ∧ s'.Written buf (ds.map digitChar) ∧ rem < 6 ∧
      Carries 6 8 ds xs rem 0 ∧ ∀ d ∈ ds, d < 2 ^ 6 := by
  have hbits := h.carries.bits
  rw [Coding.encodeRest]
  by_cases hzero : s.rem = 0
  · rw [if_neg (not_not.mpr hzero)]
    have hcarries := h.carries
    rw [hzero] at hcarries
    exact ⟨s, ys, 0, rfl, h.written, by omega, hcarries.symm hxs, h.carries.digits⟩
  · rw [if_pos hzero]
    simp only
    rw [Coding.emitDigit_eq, and_sixBits]
    obtain ⟨hfill, hdigit⟩ := h.carries.fill (Nat.le_of_lt hrem) hxs
    have hword : (s.v <<< (6 - s.rem)).toNat % 2 ^ 6 = s.v.toNat % 2 ^ s.rem * 2 ^ (6 - s.rem) := by
      have hshift := @toNat_shiftIn s.v 0 (6 - s.rem) s.rem (Nat.two_pow_pos _)
        (by omega)
      rw [Nat.add_sub_cancel' (Nat.le_of_lt hrem)] at hshift
      simpa using hshift
    have hwritten : Coding.Written buf { s with v := s.v <<< (6 - s.rem) } (ys.map digitChar) :=
      ⟨h.written.io, h.written.out, h.written.fits⟩
    obtain ⟨s', hemit, hwritten', -⟩ := hwritten.emit
      (digitChar (s.v.toNat % 2 ^ s.rem * 2 ^ (6 - s.rem)))
      (by rw [List.length_map]; omega) (by rw [List.length_map]; omega)
    refine ⟨s', ys ++ [s.v.toNat % 2 ^ s.rem * 2 ^ (6 - s.rem)], 6 - s.rem, ?_, ?_, by omega,
      hfill, ?_⟩
    · rw [hword, ← digitChar]
      exact hemit
    · rw [List.map_append, List.map_singleton]
      exact hwritten'
    · intro d hd
      rcases List.mem_append.mp hd with hold | hnew
      · exact h.carries.digits d hold
      · rw [List.mem_singleton.mp hnew]
        exact hdigit

/-- The text is padded to a multiple of four. -/
theorem Coding.Written.encodePad (turns : Nat) :
    ∀ (s : Coding) (t : List UInt8), s.Written buf t → (4 - t.length % 4) % 4 ≤ turns →
      t.length + (4 - t.length % 4) % 4 ≤ buf.length →
      t.length + (4 - t.length % 4) % 4 < 2 ^ 32 →
      ∃ s', Coding.encodePad turns s = .ok s' ∧
        s'.Written buf (t ++ List.replicate ((4 - t.length % 4) % 4) pad) := by
  have hand : ∀ n : Nat, n &&& 3 = n % 4 := fun n => Nat.and_two_pow_sub_one_eq_mod n 2
  induction turns with
  | zero =>
    intro s t h hturns _ _
    refine ⟨s, rfl, ?_⟩
    rw [Nat.le_zero.mp hturns, List.replicate_zero, List.append_nil]
    exact h
  | succ turns ih =>
    intro s t h hturns hroom hsmall
    rw [Coding.encodePad, hand, h.io]
    by_cases hmod : t.length % 4 = 0
    · rw [if_neg (not_not.mpr hmod)]
      refine ⟨s, rfl, ?_⟩
      rw [show (4 - t.length % 4) % 4 = 0 by omega, List.replicate_zero, List.append_nil]
      exact h
    · rw [if_pos hmod]
      obtain ⟨s₁, hemit, h₁, -⟩ := h.emit pad (by omega) (by omega)
      have hlength : (t ++ [pad]).length = t.length + 1 := by
        rw [List.length_append, List.length_singleton]
      obtain ⟨s₂, hpad, h₂⟩ := ih s₁ (t ++ [pad]) h₁ (by omega) (by omega) (by omega)
      refine ⟨s₂, ?_, ?_⟩
      · rw [hemit, ok_bind, hpad]
      · rw [List.append_assoc, List.singleton_append, ← List.replicate_succ, hlength] at h₂
        rwa [show (4 - t.length % 4) % 4 = (4 - (t.length + 1) % 4) % 4 + 1 by omega]

end Encode

/-- A number that an `int` holds is returned as it is. -/
theorem returned_ok {s : Coding} (h : s.io < 2 ^ 31) :
    returned (.ok s) = .ok ((s.io : Int), s.out) := by
  rw [returned, BitVec.toInt_eq_toNat_cond, BitVec.toNat_ofNat, Nat.mod_eq_of_lt (by omega),
    if_pos (by omega)]

/-- The length of the text of some bytes. -/
def encodedLength (x : List UInt8) : Nat := (x.length + 2) / 3 * 4

/-- Where there is room for the text and the zero, the encoder writes digits that are the bytes,
and padding. -/
theorem encode_eq {x buf : List UInt8} (hx : x.length < 2 ^ 30)
    (hroom : encodedLength x < buf.length) :
    ∃ ds pads rem, rem < 6 ∧ Carries 6 8 ds (x.map UInt8.toNat) rem 0 ∧ (∀ d ∈ ds, d < 2 ^ 6) ∧
      (ds.map digitChar ++ List.replicate pads pad).length = encodedLength x ∧
      ∀ fuel, x.length < fuel → encode fuel x buf =
        some (.ok ((encodedLength x : Int), (ds.map digitChar ++ List.replicate pads pad) ++
          0 :: buf.drop (encodedLength x + 1))) := by
  have hlength : (x.map UInt8.toNat).length = x.length := List.length_map _
  have hbytes : ∀ d ∈ x.map UInt8.toNat, d < 2 ^ 8 := by
    intro d hd
    obtain ⟨c, -, rfl⟩ := List.mem_map.mp hd
    exact c.toNat_lt
  have hneed : 8 * x.length < 6 * buf.length := by
    unfold encodedLength at hroom
    omega
  obtain ⟨s₁, ys, hloop, hrem₁, h₁⟩ := Coding.Has.encodeLoop (Nat.le_of_lt hneed) hx x []
    { out := buf } [] rfl rfl (Nat.succ_pos 5) (has_start 8 6 digitChar buf)
  obtain ⟨s₂, ds, rem, hrest, h₂, hrem, hcarries, hds⟩ := h₁.encodeRest hrem₁ hbytes
    (by omega) (by omega)
  have hbits := hcarries.bits
  rw [hlength] at hbits
  have htotal : ds.length + (4 - ds.length % 4) % 4 = encodedLength x := by
    unfold encodedLength
    omega
  have htext : (ds.map digitChar ++
      List.replicate ((4 - ds.length % 4) % 4) pad).length = encodedLength x := by
    rw [List.length_append, List.length_map, List.length_replicate, htotal]
  have hsmall : encodedLength x < 2 ^ 31 := by
    unfold encodedLength
    omega
  obtain ⟨s₃, hpad, h₃⟩ := h₂.encodePad 3 s₂ _ (by rw [List.length_map]; omega)
    (by rw [List.length_map]; omega) (by rw [List.length_map]; omega)
  rw [List.length_map] at h₃
  have hio : s₃.io = encodedLength x := by rw [h₃.io, htext]
  refine ⟨ds, (4 - ds.length % 4) % 4, rem, hrem, hcarries, hds, htext, fun fuel hfuel => ?_⟩
  have hend : s₁.encodeEnd = .ok { s₃ with out := s₃.out.set s₃.io 0 } := by
    rw [Coding.encodeEnd, hrest, ok_bind, hpad, ok_bind, Coding.terminate,
      if_neg (by rw [h₃.length, hio]; omega), put, if_pos (by rw [h₃.length, hio]; exact hroom)]
    rfl
  rw [encode, hloop fuel hfuel, Option.map_some, ok_bind, hend,
    returned_ok (by simp only; rw [hio]; exact hsmall)]
  simp only
  rw [hio, h₃.out, ← htext, set_length _ _ _ (by rw [htext]; exact hroom)]

/-! ## The decoder -/

/-- The character of a digit stands for it. -/
theorem digitChar_facts {d : Nat} (hd : d < 2 ^ 6) :
    isDigit (digitChar d) = true ∧ isspace (digitChar d) = false ∧
      decodeMap[(digitChar d).toNat]? = some (UInt8.ofNat d) := by
  have hall : ∀ d : Fin 64, isDigit (digitChar d.val) = true ∧
      isspace (digitChar d.val) = false ∧
      decodeMap[(digitChar d.val).toNat]? = some (UInt8.ofNat d.val) := by decide
  exact hall ⟨d, hd⟩

/-- The loop takes all digits of a text, and ends at the padding. -/
theorem Coding.Has.decodeLoop {buf : List UInt8} {ds : List Nat} (hds : ∀ d ∈ ds, d < 2 ^ 6)
    (pads : Nat) (hroom : 6 * ds.length < 8 * (buf.length + 1)) (hsmall : ds.length < 2 ^ 32 - 1)
    (rest : List Nat) :
    ∀ (taken : List Nat) (s : Coding) (ys : List Nat), ds = taken ++ rest →
      s.ii = taken.length → s.rem < 8 → s.Has 6 8 UInt8.ofNat buf taken ys →
      ∃ s' ys', (∀ fuel, rest.length < fuel →
          Base64.decodeLoop (ds.map digitChar ++ List.replicate pads pad) fuel s =
            some (.ok s')) ∧
        s'.rem < 8 ∧ s'.Has 6 8 UInt8.ofNat buf ds ys' := by
  induction rest with
  | nil =>
    intro taken s ys heq hii hrem h
    rw [List.append_nil] at heq
    subst heq
    refine ⟨s, ys, fun fuel hfuel => ?_, hrem, h⟩
    obtain ⟨fuel, rfl⟩ : ∃ k, fuel = k + 1 := ⟨fuel - 1, by omega⟩
    rw [Base64.decodeLoop, hii, List.getElem?_append_right (by rw [List.length_map]),
      List.length_map, Nat.sub_self]
    cases pads with
    | zero => rfl
    | succ pads => rfl
  | cons d rest ih =>
    intro taken s ys heq hii hrem h
    have hd : d < 2 ^ 6 := hds d (by rw [heq]; exact List.mem_append_right _ List.mem_cons_self)
    have hch : (ds.map digitChar ++ List.replicate pads pad)[s.ii]? = some (digitChar d) := by
      rw [heq, hii, List.map_append, List.map_cons, List.append_assoc,
        List.getElem?_append_right (by rw [List.length_map]), List.length_map, Nat.sub_self]
      rfl
    have hlength : taken.length + 1 ≤ ds.length := by
      rw [heq, List.length_append, List.length_cons]
      omega
    obtain ⟨hdigit, hspace, hvalue⟩ := digitChar_facts hd
    obtain ⟨value, hvalue', s₁, hs₁, hdecode⟩ := s.decodeChar_digit hspace hdigit
    obtain rfl : UInt8.ofNat d = value := Option.some.inj (hvalue.symm.trans hvalue')
    have htoNat : (UInt8.ofNat d).toNat = d := by
      rw [UInt8.toNat_ofNat']
      omega
    have h₁ := h.shiftIn (c := UInt8.ofNat d) (by rw [htoNat]; exact hd) (by omega)
    rw [htoNat, ← hs₁] at h₁
    have hrem₁ : s₁.rem = s.rem + 6 := by rw [hs₁]
    have hii₁ : s₁.ii = s.ii := by rw [hs₁]
    have hbits := h₁.carries.bits
    rw [List.length_append, List.length_singleton] at hbits
    obtain ⟨s₂, ys₂, hstep, hii₂, hrem₂, h₂⟩ : ∃ s₂ ys₂,
        s.decodeChar (digitChar d) = .ok (.next s₂) ∧ s₂.ii = s.ii ∧ s₂.rem < 8 ∧
          s₂.Has 6 8 UInt8.ofNat buf (taken ++ [d]) ys₂ := by
      rw [hdecode]
      by_cases hfull : s₁.rem ≥ 8
      · obtain ⟨s₂, ys₂, hemit, hii₂, hrem₂, h₂⟩ := h₁.shiftOut
          (show s₁.rem = s₁.rem - 8 + 8 by omega) (by omega) (by omega)
        refine ⟨s₂, ys₂, ?_, hii₂.trans hii₁, by omega, h₂⟩
        rw [if_pos hfull, and_byte, hemit]
        rfl
      · exact ⟨s₁, ys, if_neg hfull, hii₁, by omega, h₁⟩
    obtain ⟨s₃, ys₃, hloop, hrem₃, h₃⟩ := ih (taken ++ [d])
      { s₂ with ii := increment s₂.ii } ys₂
      (by rw [heq, List.append_assoc, List.singleton_append])
      (by
        rw [List.length_append, List.length_singleton, ← hii, ← hii₂]
        exact Nat.mod_eq_of_lt (by omega))
      hrem₂ ⟨⟨h₂.written.io, h₂.written.out, h₂.written.fits⟩, h₂.carries⟩
    refine ⟨s₃, ys₃, fun fuel hfuel => ?_, hrem₃, h₃⟩
    obtain ⟨fuel, rfl⟩ : ∃ k, fuel = k + 1 := ⟨fuel - 1, by omega⟩
    rw [Base64.decodeLoop, hch]
    simp only [hstep]
    exact hloop fuel (Nat.lt_of_succ_lt_succ hfuel)

/-- A text with digits that are some bytes is decoded to those. -/
theorem decode_eq {x buf : List UInt8} {ds : List Nat} {rem pads : Nat}
    (hcarries : Carries 6 8 ds (x.map UInt8.toNat) rem 0) (hrem : rem < 6)
    (hds : ∀ d ∈ ds, d < 2 ^ 6) (hx : x.length < 2 ^ 30) (hroom : x.length ≤ buf.length)
    (fuel : Nat) (hfuel : ds.length < fuel) :
    decode fuel (ds.map digitChar ++ List.replicate pads pad) buf =
      some (.ok ((x.length : Int), x ++ buf.drop x.length)) := by
  have hbits := hcarries.bits
  rw [List.length_map] at hbits
  have hstart := has_start 6 8 UInt8.ofNat buf
  have hfits : 6 * ds.length < 8 * (buf.length + 1) := by omega
  obtain ⟨s, ys, hloop, hrem', h⟩ := Coding.Has.decodeLoop hds pads hfits (by omega) ds [] _ [] rfl
    rfl (Nat.succ_pos 7) hstart
  obtain rfl : ys = x.map UInt8.toNat :=
    h.carries.unique hcarries (by decide) hrem' (by omega)
  have hchars : (x.map UInt8.toNat).map UInt8.ofNat = x := by
    rw [List.map_map]
    refine List.map_id'' (fun c => ?_) x
    exact UInt8.ofNat_toNat
  have hwritten := h.written
  rw [hchars] at hwritten
  rw [decode, hloop fuel hfuel, Option.map_some, ok_bind, Coding.decodeEnd,
    if_neg (Nat.not_le.mpr hrem'), returned_ok (by rw [hwritten.io]; omega), hwritten.io,
    hwritten.out]

/-! ## Both functions -/

/-- What is asked of the functions, for some bytes and for an input of the decoder with its
buffer. -/
structure Sound (x input dst : List UInt8) : Prop where
  /-- with buffers that are large enough the bytes come back -/
  roundTrip : x.length < 2 ^ 30 → ∀ out back : List UInt8, encodedLength x < out.length →
    x.length ≤ back.length → ∃ text : List UInt8, text.length = encodedLength x ∧
      (∀ fuel, x.length < fuel → encode fuel x out =
        some (.ok ((text.length : Int), text ++ 0 :: out.drop (text.length + 1)))) ∧
      ∀ fuel, text.length < fuel → decode fuel text back =
        some (.ok ((x.length : Int), x ++ back.drop x.length))
  /-- the encoder writes to its buffer only -/
  encodes : ∀ fuel (out : List UInt8) o, encode fuel x out ≠ some (.error o)
  /-- the decoder writes to its buffer only, and reads from its table only -/
  decodes : ∀ fuel o, decode fuel input dst ≠ some (.error o)

/-- The functions are sound unless the decoder comes to a character that is not ASCII. -/
theorem sound_iff (x input dst : List UInt8) :
    Sound x input dst ↔ ¬ReachesNonAscii input dst.length := by
  constructor
  · intro h hreaches
    obtain ⟨fuel, o, hdecode⟩ := hreaches.decode
    exact h.decodes fuel o hdecode
  · intro hnone
    refine ⟨?_, fun fuel out o => encode_within fuel x out o, decode_within hnone⟩
    intro hx out back hout hback
    obtain ⟨ds, pads, rem, hrem, hcarries, hds, hlength, hencode⟩ := encode_eq hx hout
    refine ⟨ds.map digitChar ++ List.replicate pads pad, hlength, ?_, ?_⟩
    · rw [hlength]
      exact hencode
    · intro fuel hfuel
      rw [List.length_append, List.length_map] at hfuel
      exact decode_eq hcarries hrem hds hx hback fuel (Nat.lt_of_le_of_lt (Nat.le_add_right _ _)
        hfuel)

/-- One character that is not ASCII is enough. -/
theorem not_sound : ¬Sound [] [0x80] [] := by
  intro h
  exact h.decodes 1 (.table (-128)) (by decide)

end GridMq.Transports.Base64
