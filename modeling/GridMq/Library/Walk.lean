import Mathlib.Data.Set.Finite.Basic

set_option autoImplicit false

/-!
# Walks without a choice

A walk that goes from each of its places to at most one other.  Among finitely many places it
ends exactly when it comes to none of them twice.
-/

namespace GridMq.Library

universe u

variable {α : Type u} (next : α → Option α) (start : Option α)

/-- The place after some steps, as long as there is one. -/
def place (k : Nat) : Option α := (fun p => Option.bind p next)^[k] start

/-- The walk comes to no place twice. -/
def NeverBack : Prop := ∀ j k p, place next start j = some p → place next start k = some p → j = k

variable {next start}

@[simp] theorem place_zero : place next start 0 = start := rfl

theorem place_succ (k : Nat) : place next start (k + 1) = (place next start k).bind next :=
  Function.iterate_succ_apply' _ k start

/-- A walk from the first place on. -/
theorem place_next (p : α) (k : Nat) : place next (some p) (k + 1) = place next (next p) k :=
  Function.iterate_succ_apply _ k (some p)

theorem place_add (j k : Nat) : place next start (j + k) = place next (place next start j) k := by
  rw [Nat.add_comm]
  exact Function.iterate_add_apply _ k j start

/-- A walk that has ended stays where it is. -/
theorem place_none (k : Nat) : place next (none : Option α) k = none := by
  induction k with
  | zero => rfl
  | succ k ih => rw [place_succ, ih, Option.bind_none]

theorem place_none_of_le {j k : Nat} (h : place next start j = none) (hjk : j ≤ k) :
    place next start k = none := by
  obtain ⟨d, rfl⟩ := Nat.exists_eq_add_of_le hjk
  rw [place_add, h, place_none]

/-- Where a walk comes back to a place it does so again and again. -/
theorem place_period {p : α} {d : Nat} (h : place next (some p) d = some p) (n : Nat) :
    place next (some p) (d * n) = some p := by
  induction n with
  | zero => rfl
  | succ n ih => rw [Nat.mul_succ, place_add, ih, h]

/-- A walk that ends never comes back. -/
theorem neverBack_of_ends {n : Nat} (hend : place next start n = none) :
    NeverBack next start := by
  have hlater : ∀ j d p, place next start j = some p → 0 < d →
      place next start (j + d) ≠ some p := by
    intro j d p hj hd hback
    rw [place_add, hj] at hback
    have hagain : place next start (j + d * n) = some p := by
      rw [place_add, hj]
      exact place_period hback n
    have hle : n ≤ j + d * n := by
      have hmul : 1 * n ≤ d * n := Nat.mul_le_mul_right n hd
      omega
    exact absurd ((place_none_of_le hend hle).symm.trans hagain) (by simp)
  intro j k p hj hk
  rcases Nat.lt_trichotomy j k with hlt | heq | hgt
  · obtain ⟨d, rfl⟩ := Nat.exists_eq_add_of_lt hlt
    exact absurd hk (hlater j (d + 1) p hj (Nat.succ_pos d))
  · exact heq
  · obtain ⟨d, rfl⟩ := Nat.exists_eq_add_of_lt hgt
    exact absurd hj (hlater k (d + 1) p hk (Nat.succ_pos d))

/-- A walk that never comes back ends if its places are finitely many. -/
theorem ends_of_neverBack (hnew : NeverBack next start) {places : Set α} (hfinite : places.Finite)
    (hin : ∀ k p, place next start k = some p → p ∈ places) :
    ∃ n, place next start n = none := by
  by_contra hnever
  have hsome : ∀ k, ∃ p, place next start k = some p := by
    intro k
    exact Option.ne_none_iff_exists'.mp fun hnone => hnever ⟨k, hnone⟩
  choose f hf using hsome
  have : Finite places := hfinite
  refine not_injective_infinite_finite (fun k => (⟨f k, hin k (f k) (hf k)⟩ : places)) ?_
  intro j k hjk
  have heq : f j = f k := congrArg Subtype.val hjk
  exact hnew j k (f j) (hf j) (heq ▸ hf k)

end GridMq.Library
