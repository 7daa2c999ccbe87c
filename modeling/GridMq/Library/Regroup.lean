import Mathlib.Data.Nat.Digits.Defs

set_option autoImplicit false

/-!
# Digits of other widths

A sequence of digits is a sequence of bits, the most significant ones first, and so is a sequence
of digits of another width.  A program that makes the one into the other carries along the bits
that are not yet enough for a digit: `Carries` says what it has taken, what it has made of it and
what it carries.
-/

namespace GridMq.Library

/-- The number that some digits are, the first one being the most significant. -/
def bigEndian (b : Nat) (ds : List Nat) : Nat := Nat.ofDigits b ds.reverse

@[simp] theorem bigEndian_nil (b : Nat) : bigEndian b [] = 0 := rfl

theorem bigEndian_concat (b : Nat) (ds : List Nat) (d : Nat) :
    bigEndian b (ds ++ [d]) = bigEndian b ds * b + d := by
  rw [bigEndian, List.reverse_append, List.reverse_singleton, List.singleton_append,
    Nat.ofDigits_cons, Nat.add_comm, Nat.mul_comm]
  rfl

/-- As many digits are told apart by their numbers. -/
theorem bigEndian_inj {b : Nat} (hb : 1 < b) {ds es : List Nat} (hlength : ds.length = es.length)
    (hds : ∀ d ∈ ds, d < b) (hes : ∀ e ∈ es, e < b) (h : bigEndian b ds = bigEndian b es) :
    ds = es := by
  refine List.reverse_inj.mp (Nat.ofDigits_inj_of_len_eq hb ?_ ?_ ?_ h)
  · rw [List.length_reverse, List.length_reverse, hlength]
  · exact fun d hd => hds d (List.mem_reverse.mp hd)
  · exact fun e he => hes e (List.mem_reverse.mp he)

/-- The digits `xs` of `m` bits are the digits `ys` of `n` bits and, behind them, the `rem` bits of
`p`. -/
structure Carries (m n : Nat) (xs ys : List Nat) (rem p : Nat) : Prop where
  bits : m * xs.length = n * ys.length + rem
  value : bigEndian (2 ^ m) xs = bigEndian (2 ^ n) ys * 2 ^ rem + p
  lt : p < 2 ^ rem
  digits : ∀ y ∈ ys, y < 2 ^ n

namespace Carries

variable {m n rem p : Nat} {xs ys : List Nat}

theorem start (m n : Nat) : Carries m n [] [] 0 0 := by
  refine ⟨rfl, ?_, Nat.one_pos, nofun⟩
  rw [bigEndian_nil, bigEndian_nil, Nat.zero_mul]

/-- One more digit is taken. -/
theorem take (h : Carries m n xs ys rem p) {x : Nat} (hx : x < 2 ^ m) :
    Carries m n (xs ++ [x]) ys (rem + m) (p * 2 ^ m + x) := by
  refine ⟨?_, ?_, ?_, h.digits⟩
  · rw [List.length_append, List.length_singleton, Nat.mul_add, Nat.mul_one, h.bits,
      Nat.add_assoc]
  · rw [bigEndian_concat, h.value, Nat.add_mul, Nat.pow_add, Nat.mul_assoc, Nat.add_assoc]
  · have hlt := h.lt
    calc p * 2 ^ m + x < p * 2 ^ m + 2 ^ m := Nat.add_lt_add_left hx _
      _ = (p + 1) * 2 ^ m := by rw [Nat.add_mul, Nat.one_mul]
      _ ≤ 2 ^ rem * 2 ^ m := Nat.mul_le_mul_right _ hlt
      _ = 2 ^ (rem + m) := (Nat.pow_add _ _ _).symm

/-- One more digit is made of what is carried. -/
theorem emit (h : Carries m n xs ys (rem + n) p) :
    Carries m n xs (ys ++ [p / 2 ^ rem]) rem (p % 2 ^ rem) := by
  have hpos : 0 < 2 ^ rem := Nat.two_pow_pos rem
  refine ⟨?_, ?_, Nat.mod_lt _ hpos, ?_⟩
  · rw [List.length_append, List.length_singleton, Nat.mul_add, Nat.mul_one, h.bits]
    omega
  · rw [bigEndian_concat, h.value, Nat.add_mul, Nat.add_assoc, Nat.div_add_mod' p (2 ^ rem),
      Nat.mul_assoc, ← Nat.pow_add, Nat.add_comm n rem]
  · intro y hy
    rcases List.mem_append.mp hy with hold | hnew
    · exact h.digits y hold
    · rw [List.mem_singleton.mp hnew]
      have hlt := h.lt
      rw [Nat.pow_add] at hlt
      exact Nat.div_lt_of_lt_mul hlt

/-- The bits that are left become a digit with zeros behind them. -/
theorem fill (h : Carries m n xs ys rem p) (hrem : rem ≤ n) (hxs : ∀ x ∈ xs, x < 2 ^ m) :
    Carries n m (ys ++ [p * 2 ^ (n - rem)]) xs (n - rem) 0 ∧ p * 2 ^ (n - rem) < 2 ^ n := by
  have hpow : 2 ^ rem * 2 ^ (n - rem) = 2 ^ n := by
    rw [← Nat.pow_add, Nat.add_sub_cancel' hrem]
  refine ⟨⟨?_, ?_, Nat.two_pow_pos _, hxs⟩, ?_⟩
  · rw [List.length_append, List.length_singleton, Nat.mul_add, Nat.mul_one, h.bits]
    omega
  · rw [bigEndian_concat, h.value, Nat.add_zero, Nat.add_mul, Nat.mul_assoc, hpow]
  · calc p * 2 ^ (n - rem) < 2 ^ rem * 2 ^ (n - rem) :=
          Nat.mul_lt_mul_of_pos_right h.lt (Nat.two_pow_pos _)
      _ = 2 ^ n := hpow

/-- Where no bits are left the digits are of either width. -/
theorem symm (h : Carries m n xs ys 0 p) (hxs : ∀ x ∈ xs, x < 2 ^ m) :
    Carries n m ys xs 0 0 := by
  have hp : p = 0 := by
    have hlt := h.lt
    omega
  refine ⟨h.bits.symm, ?_, Nat.one_pos, hxs⟩
  rw [h.value, hp, Nat.pow_zero, Nat.mul_one, Nat.add_zero, Nat.mul_one]

/-- What is made of some digits is the same whoever makes it, with less than a digit left. -/
theorem unique {zs : List Nat} {rem' q : Nat} (h : Carries m n xs ys rem p)
    (h' : Carries m n xs zs rem' q) (hn : 0 < n) (hrem : rem < n) (hrem' : rem' < n) : ys = zs := by
  have hbits : n * ys.length + rem = n * zs.length + rem' := h.bits.symm.trans h'.bits
  have hlength : ys.length = zs.length := by
    have hdiv := congrArg (· / n) hbits
    simp only [Nat.mul_add_div hn, Nat.div_eq_of_lt hrem, Nat.div_eq_of_lt hrem',
      Nat.add_zero] at hdiv
    exact hdiv
  have heq : rem = rem' := by
    rw [hlength] at hbits
    omega
  subst heq
  have hvalue : bigEndian (2 ^ n) ys * 2 ^ rem + p = bigEndian (2 ^ n) zs * 2 ^ rem + q :=
    h.value.symm.trans h'.value
  have hpos : 0 < 2 ^ rem := Nat.two_pow_pos rem
  have hnumber : bigEndian (2 ^ n) ys = bigEndian (2 ^ n) zs := by
    have hdiv := congrArg (· / 2 ^ rem) hvalue
    simp only [Nat.mul_comm _ (2 ^ rem), Nat.mul_add_div hpos, Nat.div_eq_of_lt h.lt,
      Nat.div_eq_of_lt h'.lt, Nat.add_zero] at hdiv
    exact hdiv
  exact bigEndian_inj (Nat.one_lt_two_pow (Nat.pos_iff_ne_zero.mp hn)) hlength h.digits h'.digits
    hnumber

end Carries

end GridMq.Library
