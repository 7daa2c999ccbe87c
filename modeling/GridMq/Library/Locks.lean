import Mathlib.Logic.Function.Basic
import Mathlib.Logic.Relation

set_option autoImplicit false

/-!
# Threads that take locks

A thread's code is the list of what it still does: it takes locks, releases them and does
other things.  A rule says which of these it may do while it holds which locks; programs
that follow a rule are put together from parts that do.
-/

namespace GridMq.Library

universe u v w

/-- What a thread does. -/
inductive LockOp (L : Type u) (A : Type v) where
  | lock (l : L)
  | unlock (l : L)
  | act (a : A)
  deriving DecidableEq, Repr

/-- Who holds each lock, and what each thread still does. -/
structure Locks (T : Type w) (L : Type u) (A : Type v) where
  owner : L → Option T
  todo : T → List (LockOp L A)

variable {T : Type w} {L : Type u} {A : Type v}

namespace LockOp

variable [DecidableEq L]

/-- The locks that a thread holds afterwards. -/
def after (held : List L) : LockOp L A → List L
  | lock l => l :: held
  | unlock l => held.erase l
  | act _ => held

/-- A program that follows a rule, from some locks held to others. -/
inductive Follows (rule : List L → LockOp L A → Prop) :
    List L → List (LockOp L A) → List L → Prop where
  | nil (held : List L) : Follows rule held [] held
  | cons {held held' : List L} {op : LockOp L A} {ops : List (LockOp L A)}
      (h : rule held op) (hops : Follows rule (op.after held) ops held') :
      Follows rule held (op :: ops) held'

variable {rule : List L → LockOp L A → Prop} {held held' held'' : List L} {op : LockOp L A}
  {ops ops' : List (LockOp L A)}

theorem Follows.append (h : Follows rule held ops held') (h' : Follows rule held' ops' held'') :
    Follows rule held (ops ++ ops') held'' := by
  induction h with
  | nil held => exact h'
  | cons hop _ ih => exact .cons hop (ih h')

/-- Parts that leave the held locks as they were. -/
theorem Follows.flatMap {ι : Type} {f : ι → List (LockOp L A)} {xs : List ι}
    (h : ∀ x ∈ xs, Follows rule held (f x) held) : Follows rule held (xs.flatMap f) held := by
  induction xs with
  | nil => exact .nil held
  | cons x xs ih =>
      rw [List.flatMap_cons]
      apply Follows.append (h x List.mem_cons_self)
      exact ih fun y hy => h y (List.mem_cons_of_mem x hy)

theorem Follows.head (h : Follows rule held (op :: ops) held') : rule held op := by
  cases h with
  | cons hop _ => exact hop

theorem Follows.tail (h : Follows rule held (op :: ops) held') :
    Follows rule (op.after held) ops held' := by
  cases h with
  | cons _ hops => exact hops

/-- A lock taken for a while. -/
theorem Follows.during {l : L} (hlock : rule held (lock l))
    (hops : Follows rule (l :: held) ops (l :: held)) (hunlock : rule (l :: held) (unlock l)) :
    Follows rule held (lock l :: (ops ++ [unlock l])) held := by
  apply Follows.cons hlock
  apply hops.append
  apply Follows.cons hunlock
  rw [after, List.erase_cons_head]
  exact .nil held

end LockOp

namespace Locks

open LockOp

variable [DecidableEq T] [DecidableEq L] {s s' : Locks T L A} {t u : T}
  {l : L} {held held' : List L} {ops : List (LockOp L A)}
  {rule : List L → LockOp L A → Prop}

/-- These are the locks that a thread holds. -/
structure Holds (s : Locks T L A) (t : T) (held : List L) : Prop where
  owner : ∀ l, l ∈ held ↔ s.owner l = some t
  nodup : held.Nodup

/-- What a thread still does follows a rule, and it holds no lock in the end. -/
def Obeys (rule : List L → LockOp L A → Prop) (s : Locks T L A) (t : T) : Prop :=
  ∃ held, s.Holds t held ∧ Follows rule held (s.todo t) []

/-- A thread goes on to the rest of its program. -/
def goOn (s : Locks T L A) (t : T) (ops : List (LockOp L A)) : Locks T L A :=
  { s with todo := Function.update s.todo t ops }

/-- A thread takes a lock. -/
def take (s : Locks T L A) (t : T) (l : L) (ops : List (LockOp L A)) : Locks T L A :=
  { owner := Function.update s.owner l (some t), todo := Function.update s.todo t ops }

/-- A thread releases a lock. -/
def release (s : Locks T L A) (t : T) (l : L) (ops : List (LockOp L A)) : Locks T L A :=
  { owner := Function.update s.owner l none, todo := Function.update s.todo t ops }

omit [DecidableEq T] [DecidableEq L] in
theorem Holds.same (h : s.Holds u held) (howner : ∀ l, s'.owner l = some u ↔ s.owner l = some u) :
    s'.Holds u held :=
  ⟨fun l => (h.owner l).trans (howner l).symm, h.nodup⟩

theorem Obeys.goOn_other (h : Obeys rule s u) (hu : u ≠ t) : Obeys rule (s.goOn t ops) u := by
  obtain ⟨held, hholds, hfollows⟩ := h
  refine ⟨held, hholds.same fun _ => Iff.rfl, ?_⟩
  simp only [goOn, Function.update_of_ne hu]
  exact hfollows

theorem Holds.goOn (h : s.Holds t held) (hops : Follows rule held ops []) :
    Obeys rule (s.goOn t ops) t := by
  refine ⟨held, h.same fun _ => Iff.rfl, ?_⟩
  simp only [Locks.goOn, Function.update_self]
  exact hops

/-- A thread that has no lock taken from it and takes none. -/
theorem Obeys.take_other (h : Obeys rule s u) (hu : u ≠ t) (hfree : s.owner l = none) :
    Obeys rule (s.take t l ops) u := by
  obtain ⟨held, hholds, hfollows⟩ := h
  refine ⟨held, hholds.same ?_, ?_⟩
  · intro l'
    simp only [take, Function.update_apply]
    split
    · rename_i hl
      rw [hl, hfree]
      simp [Ne.symm hu]
    · rfl
  · simp only [take, Function.update_of_ne hu]
    exact hfollows

theorem Holds.take (h : s.Holds t held) (hfree : s.owner l = none)
    (hops : Follows rule (l :: held) ops []) : Obeys rule (s.take t l ops) t := by
  refine ⟨l :: held, ⟨?_, ?_⟩, ?_⟩
  · intro l'
    simp only [Locks.take, Function.update_apply, List.mem_cons]
    split
    · rename_i hl
      simp [hl]
    · rename_i hl
      simp [hl, h.owner l']
  · refine List.nodup_cons.mpr ⟨?_, h.nodup⟩
    intro hmem
    rw [h.owner l, hfree] at hmem
    exact absurd hmem (by simp)
  · simp only [Locks.take, Function.update_self]
    exact hops

theorem Obeys.release_other (h : Obeys rule s u) (hu : u ≠ t) (hown : s.owner l = some t) :
    Obeys rule (s.release t l ops) u := by
  obtain ⟨held, hholds, hfollows⟩ := h
  refine ⟨held, hholds.same ?_, ?_⟩
  · intro l'
    simp only [release, Function.update_apply]
    split
    · rename_i hl
      rw [hl, hown]
      simp [Ne.symm hu]
    · rfl
  · simp only [release, Function.update_of_ne hu]
    exact hfollows

theorem Holds.release (h : s.Holds t held) (hops : Follows rule (held.erase l) ops []) :
    Obeys rule (s.release t l ops) t := by
  refine ⟨held.erase l, ⟨?_, h.nodup.erase l⟩, ?_⟩
  · intro l'
    simp only [Locks.release, Function.update_apply]
    rw [h.nodup.mem_erase_iff, h.owner l']
    split
    · rename_i hl
      simp [hl]
    · rename_i hl
      simp [hl]
  · simp only [Locks.release, Function.update_self]
    exact hops

end Locks

/-! ## Cycles of waiting threads -/

/-- There is no cycle when every thread waits only for threads of higher rank among those
that wait themselves. -/
theorem no_cycle_of_rank {waits : T → T → Prop} (rank : T → Nat)
    (h : ∀ t u v, waits t u → waits u v → rank t < rank u) (t : T) :
    ¬Relation.TransGen waits t t := by
  have hlt : ∀ u, Relation.TransGen waits t u → ∀ v, waits u v → rank t < rank u := by
    intro u hpath
    induction hpath with
    | single hstep => exact fun v hv => h t _ v hstep hv
    | tail _ hstep ih => exact fun v hv => Nat.lt_trans (ih _ hstep) (h _ _ v hstep hv)
  intro hcycle
  obtain ⟨u, hstep, -⟩ := Relation.TransGen.head'_iff.mp hcycle
  exact absurd (hlt t hcycle u hstep) (Nat.lt_irrefl _)

end GridMq.Library
