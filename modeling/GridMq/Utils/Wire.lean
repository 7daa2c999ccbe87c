import Mathlib.Data.List.Basic
import Mathlib.Data.Nat.Bitwise

set_option autoImplicit false

/-!
# Integers on the wire (`src/utils/wire.c`)

On the wire all integers are written with their most significant byte first.  A value
is a natural number below two to the width of its C type.
-/

namespace GridMq

/-- `grid_getl`, of the first four bytes. -/
def getl : List UInt8 → Nat
  | b0 :: b1 :: b2 :: b3 :: _ =>
      b0.toNat * 2 ^ 24 + b1.toNat * 2 ^ 16 + b2.toNat * 2 ^ 8 + b3.toNat
  | _ => 0

/-- `grid_putl`: the four bytes of the value. -/
def putl (val : Nat) : List UInt8 :=
  [.ofNat (val / 2 ^ 24), .ofNat (val / 2 ^ 16), .ofNat (val / 2 ^ 8), .ofNat val]

@[simp] theorem length_putl (val : Nat) : (putl val).length = 4 := rfl

/-- A value below `2 ^ 32` is read back from what was written. -/
theorem getl_putl {val : Nat} (h : val < 2 ^ 32) (rest : List UInt8) :
    getl (putl val ++ rest) = val := by
  simp only [putl, getl, List.cons_append, UInt8.toNat_ofNat']
  omega

/-- What was read is written back. -/
theorem putl_getl {bytes : List UInt8} (h : bytes.length = 4) : putl (getl bytes) = bytes := by
  match bytes, h with
  | [b0, b1, b2, b3], _ =>
      have h0 := b0.toNat_lt
      have h1 := b1.toNat_lt
      have h2 := b2.toNat_lt
      have h3 := b3.toNat_lt
      simp only [putl, getl, List.cons.injEq, and_true]
      refine ⟨?_, ?_, ?_, ?_⟩ <;>
        (apply UInt8.toNat_inj.mp; simp only [UInt8.toNat_ofNat']; omega)

/-- The bit `0x80000000`, which marks the bottom of a backtrace stack. -/
def topBit (val : Nat) : Bool := val.testBit 31

/-- `val | 0x80000000`. -/
def setTopBit (val : Nat) : Nat := val ||| 2 ^ 31

theorem topBit_iff {val : Nat} (h : val < 2 ^ 32) : topBit val = true ↔ 2 ^ 31 ≤ val := by
  rw [topBit, Nat.testBit_eq_decide_div_mod_eq, decide_eq_true_eq]
  omega

theorem topBit_eq_false_iff {val : Nat} (h : val < 2 ^ 32) :
    topBit val = false ↔ val < 2 ^ 31 := by
  rw [← Bool.not_eq_true, topBit_iff h]
  omega

theorem setTopBit_lt {val : Nat} (h : val < 2 ^ 32) : setTopBit val < 2 ^ 32 :=
  Nat.or_lt_two_pow h (by decide)

theorem topBit_setTopBit (val : Nat) : topBit (setTopBit val) = true := by
  rw [topBit, setTopBit, Nat.testBit_or, Nat.testBit_two_pow_self, Bool.or_true]

/-- The value of an unsigned integer of the C program in memory, where the least
significant byte comes first. -/
def native (bytes : List UInt8) : Nat := bytes.foldr (fun b n => b.toNat + 256 * n) 0

/-- What some bytes hold is less than two to their width. -/
theorem native_lt (bytes : List UInt8) : native bytes < 256 ^ bytes.length := by
  induction bytes with
  | nil => exact Nat.zero_lt_one
  | cons b rest ih =>
      have hb := b.toNat_lt
      have hstep : native (b :: rest) = b.toNat + 256 * native rest := rfl
      rw [hstep, List.length_cons, Nat.pow_succ]
      omega

/-- An unsigned integer of some bytes, as the C program writes it to memory. -/
def nativeOf : Nat → Nat → List UInt8
  | 0, _ => []
  | n + 1, val => .ofNat val :: nativeOf n (val / 256)

@[simp] theorem length_nativeOf (n val : Nat) : (nativeOf n val).length = n := by
  induction n generalizing val with
  | zero => rfl
  | succ n ih => rw [nativeOf, List.length_cons, ih]

/-- A value is read back from what was written, if it has room. -/
theorem native_nativeOf {n val : Nat} (h : val < 256 ^ n) : native (nativeOf n val) = val := by
  induction n generalizing val with
  | zero =>
      have hzero : val = 0 := Nat.lt_one_iff.mp h
      rw [hzero]
      rfl
  | succ n ih =>
      have hdiv : val / 256 < 256 ^ n := by
        rw [Nat.pow_succ] at h
        exact Nat.div_lt_of_lt_mul (Nat.mul_comm _ _ ▸ h)
      have hstep : native (nativeOf (n + 1) val) =
          (UInt8.ofNat val).toNat + 256 * native (nativeOf n (val / 256)) := rfl
      rw [hstep, ih hdiv, UInt8.toNat_ofNat']
      omega

/-- What was read is written back. -/
theorem nativeOf_native (bytes : List UInt8) : nativeOf bytes.length (native bytes) = bytes := by
  induction bytes with
  | nil => rfl
  | cons b rest ih =>
      have hb := b.toNat_lt
      have hstep : native (b :: rest) = b.toNat + 256 * native rest := rfl
      have hdiv : native (b :: rest) / 256 = native rest := by
        rw [hstep]
        omega
      have hfirst : UInt8.ofNat (native (b :: rest)) = b := by
        apply UInt8.toNat_inj.mp
        rw [hstep, UInt8.toNat_ofNat']
        omega
      rw [List.length_cons, nativeOf, hdiv, ih, hfirst]

/-- `grid_gets`, of the first two bytes. -/
def gets : List UInt8 → Nat
  | b0 :: b1 :: _ => b0.toNat * 2 ^ 8 + b1.toNat
  | _ => 0

/-- `grid_puts`: the two bytes of the value. -/
def puts (val : Nat) : List UInt8 := [.ofNat (val / 2 ^ 8), .ofNat val]

/-- `grid_getll`, of the first eight bytes. -/
def getll : List UInt8 → Nat
  | b0 :: b1 :: b2 :: b3 :: b4 :: b5 :: b6 :: b7 :: _ =>
      b0.toNat * 2 ^ 56 + b1.toNat * 2 ^ 48 + b2.toNat * 2 ^ 40 + b3.toNat * 2 ^ 32 +
        b4.toNat * 2 ^ 24 + b5.toNat * 2 ^ 16 + b6.toNat * 2 ^ 8 + b7.toNat
  | _ => 0

/-- `grid_putll`: the eight bytes of the value. -/
def putll (val : Nat) : List UInt8 :=
  [.ofNat (val / 2 ^ 56), .ofNat (val / 2 ^ 48), .ofNat (val / 2 ^ 40), .ofNat (val / 2 ^ 32),
    .ofNat (val / 2 ^ 24), .ofNat (val / 2 ^ 16), .ofNat (val / 2 ^ 8), .ofNat val]

@[simp] theorem length_putll (val : Nat) : (putll val).length = 8 := rfl

/-- A value below `2 ^ 64` is read back from what was written. -/
theorem getll_putll {val : Nat} (h : val < 2 ^ 64) : getll (putll val) = val := by
  simp only [putll, getll, UInt8.toNat_ofNat']
  omega

end GridMq
