import Mathlib.Data.List.TakeDrop

set_option autoImplicit false

/-!
# Copies to a piece of memory

A piece of memory is a list, and a copy replaces as many of its elements as are copied.  A copy
that stays within the memory changes neither its size nor anything outside of its place.
-/

namespace GridMq.Library

universe u

variable {α : Type u}

/-- The memory after some elements were copied to a position. -/
def overwrite (mem : List α) (pos : Nat) (src : List α) : List α :=
  mem.take pos ++ src ++ mem.drop (pos + src.length)

variable {mem src : List α} {pos n : Nat}

theorem length_overwrite (h : pos + src.length ≤ mem.length) :
    (overwrite mem pos src).length = mem.length := by
  rw [overwrite, List.length_append, List.length_append, List.length_take, List.length_drop]
  omega

/-- Up to its end, the memory is what was in front of the place, and the copy. -/
theorem take_overwrite_end (src : List α) (hpos : pos ≤ mem.length) :
    (overwrite mem pos src).take (pos + src.length) = mem.take pos ++ src := by
  have hlen : (mem.take pos ++ src).length = pos + src.length := by
    rw [List.length_append, List.length_take, Nat.min_eq_left hpos]
  rw [overwrite, List.take_append_of_le_length (Nat.le_of_eq hlen.symm),
    List.take_of_length_le (Nat.le_of_eq hlen)]

/-- Nothing behind the place changes. -/
theorem drop_overwrite (hn : pos + src.length ≤ n) (hpos : pos ≤ mem.length) :
    (overwrite mem pos src).drop n = mem.drop n := by
  have hlen : (mem.take pos ++ src).length = pos + src.length := by
    rw [List.length_append, List.length_take, Nat.min_eq_left hpos]
  rw [overwrite, List.drop_append, hlen, List.drop_of_length_le (by omega), List.nil_append,
    List.drop_drop, Nat.add_sub_cancel' hn]

@[simp] theorem overwrite_nil (mem : List α) (pos : Nat) : overwrite mem pos [] = mem := by
  rw [overwrite, List.append_nil, List.length_nil, Nat.add_zero, List.take_append_drop]

/-- A copy behind another one is one copy. -/
theorem overwrite_append (src' : List α) (h : pos + src.length ≤ mem.length) :
    overwrite (overwrite mem pos src) (pos + src.length) src' = overwrite mem pos (src ++ src') := by
  have hpos : pos ≤ mem.length := by omega
  rw [overwrite, take_overwrite_end src hpos, drop_overwrite (by omega) hpos, overwrite,
    List.length_append, ← List.append_assoc, Nat.add_assoc]

end GridMq.Library
