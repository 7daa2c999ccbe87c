import Mathlib.Data.List.Nodup
import Mathlib.Data.List.Count

set_option autoImplicit false

/-!
# Service in turn

A ring is the list of its members from the next one to be served on.  Members are
served from the front and go to the end; others may join and leave at any time and
place.  Between two services of a member that stays, every other member that stays
is served once.
-/

namespace GridMq.Library

variable {α : Type} [DecidableEq α]

/-- One turn of a ring, and the member that is served in it. -/
inductive Turn : List α → Option α → List α → Prop where
  | stay {x : α} {rest : List α} : Turn (x :: rest) (some x) (rest ++ [x])
  | release {x : α} {rest : List α} : Turn (x :: rest) (some x) rest
  | leave {r : List α} (x : α) : Turn r none (r.erase x)
  | join {r r' : List α} (h : r.Sublist r') : Turn r none r'

/-- The turns of a ring, in all of whose states `P` holds. -/
inductive Turns (P : List α → Prop) : List α → List (Option α) → List α → Prop where
  | nil {r : List α} (h : P r) : Turns P r [] r
  | cons {r r' r'' : List α} {o : Option α} {os : List (Option α)} (h : P r) (hturn : Turn r o r')
      (hrest : Turns P r' os r'') : Turns P r (o :: os) r''

/-- The member `x` comes before `y`. -/
def Before (x y : α) (r : List α) : Prop := [x, y].Sublist r

omit [DecidableEq α] in
theorem Before.of_cons {x y z : α} {rest : List α} (h : Before x y (z :: rest)) (hz : z ≠ x) :
    Before x y rest := by
  rcases List.sublist_cons_iff.mp h with h | ⟨r, heq, -⟩
  · exact h
  · exact absurd (List.cons.inj heq).1.symm hz

omit [DecidableEq α] in
/-- The first member comes after none of the others. -/
theorem Before.ne_head {x y z : α} {rest : List α} (h : Before x y (z :: rest))
    (hnd : (z :: rest).Nodup) : z ≠ y := by
  rintro rfl
  have hnotin := (List.nodup_cons.mp hnd).1
  rcases List.sublist_cons_iff.mp h with h | ⟨r, heq, hr⟩
  · exact hnotin (h.subset (by simp))
  · obtain rfl := (List.cons.inj heq).2
    exact hnotin (hr.subset (by simp))

variable {r r' : List α} {o : Option α} {x y : α}

/-- A member that is served and stays comes after all the others. -/
theorem Turn.goes_last (h : Turn r (some x) r') (hnd : r.Nodup) (hx : x ∈ r') (hy : y ∈ r')
    (hne : y ≠ x) : Before y x r' := by
  cases h with
  | stay =>
      rename_i rest
      have hrest : y ∈ rest := by
        rcases List.mem_append.mp hy with hy | hy
        · exact hy
        · exact absurd (List.mem_singleton.mp hy) hne
      exact (List.singleton_sublist.mpr hrest).append (List.Sublist.refl [x])
  | release => exact absurd hx (List.nodup_cons.mp hnd).1

/-- While the first of two members is not served, neither is the second, and they keep
their order. -/
theorem Turn.keeps_order (h : Turn r o r') (hnd : r.Nodup) (hx : x ∈ r') (hy : y ∈ r')
    (hxy : Before x y r) (hserved : o ≠ some x) : Before x y r' ∧ o ≠ some y := by
  cases h with
  | stay =>
      rename_i z rest
      have hz : z ≠ x := fun hz => hserved (congrArg some hz)
      have hz' := hxy.ne_head hnd
      refine ⟨(hxy.of_cons hz).trans (List.sublist_append_left _ _), ?_⟩
      simpa using hz'
  | release =>
      rename_i z
      have hz : z ≠ x := fun hz => hserved (congrArg some hz)
      exact ⟨hxy.of_cons hz, by simpa using hxy.ne_head hnd⟩
  | leave z =>
      have hzx : z ≠ x := by
        rintro rfl
        exact hnd.not_mem_erase hx
      have hzy : z ≠ y := by
        rintro rfl
        exact hnd.not_mem_erase hy
      have herase := hxy.erase z
      rw [List.erase_of_not_mem (by simp [hzx, hzy])] at herase
      exact ⟨herase, by simp⟩
  | join hsub => exact ⟨hxy.trans hsub, by simp⟩

variable {P : List α → Prop} {os : List (Option α)}

theorem Turns.start (h : Turns P r os r') : P r := by
  cases h with
  | nil h => exact h
  | cons h _ _ => exact h

/-- A member that comes after one that is not served is not served either. -/
theorem Turns.not_served (h : Turns P r os r')
    (hP : ∀ r, P r → r.Nodup ∧ x ∈ r ∧ y ∈ r) (hxy : Before x y r) (hx : some x ∉ os) :
    os.count (some y) = 0 ∧ Before x y r' := by
  induction h with
  | nil _ => exact ⟨rfl, hxy⟩
  | @cons r r₁ r' o os hr hturn hrest ih =>
      obtain ⟨hox, hosx⟩ := not_or.mp (List.mem_cons.not.mp hx)
      obtain ⟨hnd, -, -⟩ := hP r hr
      obtain ⟨-, hx₁, hy₁⟩ := hP r₁ hrest.start
      obtain ⟨hxy₁, hoy⟩ := hturn.keeps_order hnd hx₁ hy₁ hxy (Ne.symm hox)
      obtain ⟨hcount, hxy'⟩ := ih hxy₁ hosx
      refine ⟨?_, hxy'⟩
      rw [List.count_cons_of_ne hoy]
      exact hcount

/-- A member that comes before one that is not served is served at most once, and comes
after it from then on. -/
theorem Turns.served_once (h : Turns P r os r')
    (hP : ∀ r, P r → r.Nodup ∧ x ∈ r ∧ y ∈ r) (hne : x ≠ y) (hyx : Before y x r)
    (hx : some x ∉ os) :
    os.count (some y) = 1 ∧ Before x y r' ∨ os.count (some y) = 0 ∧ Before y x r' := by
  induction h with
  | nil _ => exact Or.inr ⟨rfl, hyx⟩
  | @cons r r₁ r' o os hr hturn hrest ih =>
      obtain ⟨hox, hosx⟩ := not_or.mp (List.mem_cons.not.mp hx)
      obtain ⟨hnd, -, -⟩ := hP r hr
      obtain ⟨-, hx₁, hy₁⟩ := hP r₁ hrest.start
      by_cases hoy : o = some y
      · -- served here, and not again
        subst hoy
        have hxy := hturn.goes_last hnd hy₁ hx₁ hne
        obtain ⟨hcount, hxy'⟩ := hrest.not_served hP hxy hosx
        refine Or.inl ⟨?_, hxy'⟩
        rw [List.count_cons_self, hcount]
      · obtain ⟨hyx₁, -⟩ := hturn.keeps_order hnd hy₁ hx₁ hyx hoy
        rw [List.count_cons_of_ne hoy]
        exact ih hyx₁ hosx

/-- Between two services of `x` with no other in between, `y` is served exactly once, if
both are members all the time. -/
theorem Turns.fair {r₀ r₁ r₂ r₃ : List α} (hnd : r₀.Nodup) (hfirst : Turn r₀ (some x) r₁)
    (hmid : Turns P r₁ os r₂) (hlast : Turn r₂ (some x) r₃)
    (hP : ∀ r, P r → r.Nodup ∧ x ∈ r ∧ y ∈ r) (hend : P r₂) (hne : x ≠ y) (hx : some x ∉ os) :
    os.count (some y) = 1 := by
  obtain ⟨-, hx₁, hy₁⟩ := hP r₁ hmid.start
  have hyx := hfirst.goes_last hnd hx₁ hy₁ hne.symm
  rcases hmid.served_once hP hne hyx hx with ⟨hcount, -⟩ | ⟨-, hyx₂⟩
  · exact hcount
  · obtain ⟨hnd₂, -, -⟩ := hP r₂ hend
    cases hlast with
    | stay => exact absurd rfl (hyx₂.ne_head hnd₂)
    | release => exact absurd rfl (hyx₂.ne_head hnd₂)

end GridMq.Library
