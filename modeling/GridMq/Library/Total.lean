import Mathlib.Algebra.BigOperators.Group.Finset.Basic
import Mathlib.Data.Set.Card

set_option autoImplicit false

/-!
# Totals

The values behind finitely many names, each with a weight, and what one update does to
the sum of the weights.
-/

namespace GridMq.Library

universe u v

variable {ι : Type u} {α : Type v} [DecidableEq ι]

/-- The sum of the weights of the values behind some names. -/
def total (names : Finset ι) (weight : α → Nat) (f : ι → α) : Nat := ∑ i ∈ names, weight (f i)

/-- All other names stand for values without weight. -/
def Covers (names : Finset ι) (weight : α → Nat) (f : ι → α) : Prop :=
  ∀ i, i ∉ names → weight (f i) = 0

variable {names : Finset ι} {weight : α → Nat} {f : ι → α}

theorem Covers.update (h : Covers names weight f) (i : ι) (a : α) :
    Covers (insert i names) weight (Function.update f i a) := by
  intro j hj
  obtain ⟨hne, hold⟩ := not_or.mp (mt Finset.mem_insert.mpr hj)
  rw [Function.update_of_ne hne]
  exact h j hold

/-- Names that stand for nothing do not matter. -/
theorem total_insert (h : Covers names weight f) (i : ι) :
    total (insert i names) weight f = total names weight f :=
  Finset.sum_insert_of_eq_zero_if_notMem (h i)

/-- One weight takes the place of another. -/
theorem total_update (h : Covers names weight f) (i : ι) (a : α) :
    total (insert i names) weight (Function.update f i a) + weight (f i) =
      total names weight f + weight a := by
  rw [← total_insert h i, total, total,
    ← Finset.add_sum_erase _ _ (Finset.mem_insert_self i names),
    ← Finset.add_sum_erase _ (fun j => weight (f j)) (Finset.mem_insert_self i names)]
  have hrest : ∑ j ∈ (insert i names).erase i, weight (Function.update f i a j) =
      ∑ j ∈ (insert i names).erase i, weight (f j) := by
    apply Finset.sum_congr rfl
    intro j hj
    rw [Function.update_of_ne (Finset.ne_of_mem_erase hj)]
  rw [hrest, Function.update_self]
  omega

/-- Each weight is part of the sum. -/
theorem le_total (h : Covers names weight f) (i : ι) : weight (f i) ≤ total names weight f := by
  rw [← total_insert h i, total, ← Finset.add_sum_erase _ _ (Finset.mem_insert_self i names)]
  exact Nat.le_add_right _ _

/-- A sum of ones counts the names. -/
theorem ncard_eq_total {p : α → Prop} [DecidablePred p]
    (h : Covers names (fun a => if p a then 1 else 0) f) :
    {i | p (f i)}.ncard = total names (fun a => if p a then 1 else 0) f := by
  have hset : {i | p (f i)} = ((names.filter fun i => p (f i)) : Finset ι) := by
    ext i
    simp only [Set.mem_ofPred_eq, Finset.coe_filter, iff_and_self]
    intro hp
    by_contra hi
    have hone : (if p (f i) then 1 else 0) = 1 := if_pos hp
    exact absurd (hone.symm.trans (h i hi)) Nat.one_ne_zero
  rw [hset, Set.ncard_coe_finset, Finset.card_filter, total]

end GridMq.Library
