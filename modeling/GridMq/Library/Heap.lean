import Mathlib.Data.Option.Basic
import Mathlib.Logic.Function.Basic

set_option autoImplicit false

/-!
# Allocated memory

A heap knows what is at each address that is allocated, and an address is not given out twice.
An operation on memory that is not allocated has no result.  Where several owners have parts of
one heap, an operation on the part of one of them leaves the other parts as they are.
-/

namespace GridMq.Library

universe u

/-- The blocks that are allocated.  `moves` is what `realloc` decides from now on: whether a block
goes to another address. -/
structure Heap (α : Type u) where
  blocks : Nat → Option α := fun _ => none
  next : Nat := 1
  moves : Nat → Bool := fun _ => true
  fresh : ∀ a, next ≤ a → blocks a = none := by simp

namespace Heap

variable {α : Type u}

/-- `malloc`, and what is written to the memory. -/
def malloc (self : Heap α) (v : α) : Heap α × Nat :=
  ({ blocks := Function.update self.blocks self.next (some v)
     next := self.next + 1
     moves := self.moves
     fresh := by
       intro a ha
       rw [Function.update_of_ne (by omega)]
       exact self.fresh a (by omega) }, self.next)

/-- A block that is allocated changes or goes. -/
def set (self : Heap α) (a : Nat) (v : Option α) (ha : a < self.next) : Heap α where
  blocks := Function.update self.blocks a v
  next := self.next
  moves := self.moves
  fresh := by
    intro x hx
    rw [Function.update_of_ne (by omega)]
    exact self.fresh x hx

theorem lt_next {self : Heap α} {a : Nat} (h : (self.blocks a).isSome) : a < self.next := by
  by_contra hge
  rw [self.fresh a (Nat.not_lt.mp hge)] at h
  cases h

/-- `free`. -/
def free (self : Heap α) (a : Nat) : Option (Heap α) :=
  if h : (self.blocks a).isSome then some (self.set a none (lt_next h)) else none

/-- A block is overwritten. -/
def write (self : Heap α) (a : Nat) (v : α) : Option (Heap α) :=
  if h : (self.blocks a).isSome then some (self.set a (some v) (lt_next h)) else none

/-- The next decision of `realloc` is taken. -/
def decided (self : Heap α) : Heap α :=
  { self with moves := fun n => self.moves (n + 1) }

/-- `realloc`: `resize` is what becomes of the content. -/
def realloc (self : Heap α) (a : Nat) (resize : α → α) : Option (Heap α × Nat) := do
  let v ← self.blocks a
  if self.moves 0 then
    let heap ← self.decided.free a
    return heap.malloc (resize v)
  else
    let heap ← self.decided.write a (resize v)
    return (heap, a)

/-! ## Memory that is gone -/

/-- What was given out and is not allocated stays so. -/
structure Later (m m' : Heap α) : Prop where
  next_le : m.next ≤ m'.next
  gone : ∀ a < m.next, m.blocks a = none → m'.blocks a = none

variable {self self' self'' : Heap α} {a : Nat} {v : α} {resize : α → α}

theorem Later.refl (self : Heap α) : Later self self := ⟨Nat.le_refl _, fun _ _ h => h⟩

theorem Later.trans (h : Later self self') (h' : Later self' self'') : Later self self'' where
  next_le := Nat.le_trans h.next_le h'.next_le
  gone := by
    intro a ha hnone
    exact h'.gone a (Nat.lt_of_lt_of_le ha h.next_le) (h.gone a ha hnone)

theorem later_malloc (self : Heap α) (v : α) : Later self (self.malloc v).1 where
  next_le := Nat.le_succ _
  gone := by
    intro a ha hnone
    simp only [malloc]
    rw [Function.update_of_ne (by omega)]
    exact hnone

theorem later_free (h : self.free a = some self') : Later self self' := by
  unfold free at h
  split at h
  · cases h
    refine ⟨Nat.le_refl _, ?_⟩
    intro x _ hnone
    by_cases hx : x = a
    · subst hx
      exact Function.update_self ..
    · rw [← hnone]
      exact Function.update_of_ne hx ..
  · cases h

theorem later_write (h : self.write a v = some self') : Later self self' := by
  unfold write at h
  split at h
  · rename_i hsome
    cases h
    refine ⟨Nat.le_refl _, ?_⟩
    intro x _ hnone
    by_cases hx : x = a
    · subst hx
      rw [hnone] at hsome
      cases hsome
    · rw [← hnone]
      exact Function.update_of_ne hx ..
  · cases h

theorem later_decided (self : Heap α) : Later self self.decided := ⟨Nat.le_refl _, fun _ _ h => h⟩

/-- What `realloc` does: the block stays where it is, or it is gone and there is a new one. -/
theorem realloc_cases {a' : Nat} (h : self.realloc a resize = some (self', a')) :
    Later self self' ∧ a' < self'.next ∧
      (a' = a ∨ (self'.blocks a = none ∧ a < self.next ∧ self.next ≤ a')) := by
  obtain ⟨v, hv, h⟩ := Option.bind_eq_some_iff.mp h
  have hlt : a < self.next := lt_next (by rw [hv]; rfl)
  split at h
  · obtain ⟨heap, hfree, h⟩ := Option.bind_eq_some_iff.mp h
    cases h
    have hlater := later_free hfree
    refine ⟨((later_decided self).trans hlater).trans (later_malloc heap _), Nat.lt_succ_self _,
      Or.inr ⟨?_, hlt, hlater.next_le⟩⟩
    have hgone : heap.blocks a = none := by
      unfold free at hfree
      split at hfree
      · cases hfree
        exact Function.update_self ..
      · cases hfree
    exact (later_malloc heap _).gone a (Nat.lt_of_lt_of_le hlt hlater.next_le) hgone
  · obtain ⟨heap, hwrite, h⟩ := Option.bind_eq_some_iff.mp h
    cases h
    have hlater := (later_decided self).trans (later_write hwrite)
    exact ⟨hlater, Nat.lt_of_lt_of_le hlt hlater.next_le, Or.inl rfl⟩

theorem free_gone (h : self.blocks a = none) : self.free a = none := by
  simp [free, h]

theorem realloc_gone (h : self.blocks a = none) : self.realloc a resize = none := by
  simp [realloc, h]

/-! ## Parts of a heap -/

variable {ι : Type} [DecidableEq ι]

/-- The blocks are those that were there and, apart from them and from each other, the parts of
the owners. -/
structure Shares (base : Nat → Option α) (parts : ι → Nat → Option α) (blocks : Nat → Option α) :
    Prop where
  base_le : ∀ a, base a ≠ none → blocks a = base a ∧ ∀ i, parts i a = none
  part_le : ∀ i a, parts i a ≠ none → blocks a = parts i a
  apart : ∀ i j a, parts i a ≠ none → parts j a ≠ none → i = j
  cover : ∀ a, blocks a ≠ none → base a ≠ none ∨ ∃ i, parts i a ≠ none

variable {base blocks : Nat → Option α} {parts : ι → Nat → Option α} {i : ι}

omit [DecidableEq ι] in
theorem Shares.start (base : Nat → Option α) :
    Shares base (fun (_ : ι) _ => none) base where
  base_le := fun _ _ => ⟨rfl, fun _ => rfl⟩
  part_le := fun _ _ h => absurd rfl h
  apart := fun _ _ _ h => absurd rfl h
  cover := fun _ h => Or.inl h

omit [DecidableEq ι] in
/-- Where no owner has anything, there is what was there. -/
theorem Shares.finish (h : Shares base parts blocks) (hparts : ∀ i a, parts i a = none) :
    blocks = base := by
  funext a
  by_cases hbase : base a = none
  · rw [hbase]
    by_contra hne
    rcases h.cover a hne with hb | ⟨i, hi⟩
    · exact hb hbase
    · exact hi (hparts i a)
  · exact (h.base_le a hbase).1

/-- An owner changes a block of its own, or takes one that nobody has. -/
theorem Shares.set (h : Shares base parts blocks) (v : Option α)
    (hown : parts i a ≠ none ∨ blocks a = none) :
    Shares base (Function.update parts i (Function.update (parts i) a v))
      (Function.update blocks a v) := by
  have hother : ∀ j, j ≠ i → parts j a = none := by
    intro j hj
    by_contra hne
    rcases hown with hi | hnone
    · exact hj (h.apart j i a hne hi)
    · rw [← h.part_le j a hne] at hne
      exact hne hnone
  have hbase : base a = none := by
    by_contra hne
    obtain ⟨heq, hno⟩ := h.base_le a hne
    rcases hown with hi | hnone
    · exact hi (hno i)
    · rw [← heq] at hne
      exact hne hnone
  have hpart : ∀ j x, x ≠ a →
      Function.update parts i (Function.update (parts i) a v) j x = parts j x := by
    intro j x hx
    by_cases hj : j = i
    · rw [hj, Function.update_self, Function.update_of_ne hx]
    · rw [Function.update_of_ne hj]
  have hat : ∀ j, j ≠ i →
      Function.update parts i (Function.update (parts i) a v) j a = none := by
    intro j hj
    rw [Function.update_of_ne hj]
    exact hother j hj
  refine ⟨?_, ?_, ?_, ?_⟩
  · intro x hx
    have hxa : x ≠ a := fun heq => hx (heq ▸ hbase)
    refine ⟨?_, fun j => ?_⟩
    · rw [Function.update_of_ne hxa]
      exact (h.base_le x hx).1
    · rw [hpart j x hxa]
      exact (h.base_le x hx).2 j
  · intro j x hx
    by_cases hxa : x = a
    · subst hxa
      by_cases hj : j = i
      · rw [hj, Function.update_self, Function.update_self, Function.update_self]
      · exact absurd (hat j hj) hx
    · rw [hpart j x hxa] at hx ⊢
      rw [Function.update_of_ne hxa]
      exact h.part_le j x hx
  · intro j j' x hx hx'
    by_cases hxa : x = a
    · subst hxa
      have hj : j = i := by
        by_contra hne
        exact hx (hat j hne)
      have hj' : j' = i := by
        by_contra hne
        exact hx' (hat j' hne)
      rw [hj, hj']
    · rw [hpart j x hxa] at hx
      rw [hpart j' x hxa] at hx'
      exact h.apart j j' x hx hx'
  · intro x hx
    by_cases hxa : x = a
    · subst hxa
      rw [Function.update_self] at hx
      refine Or.inr ⟨i, ?_⟩
      rw [Function.update_self, Function.update_self]
      exact hx
    · rw [Function.update_of_ne hxa] at hx
      rcases h.cover x hx with hb | ⟨j, hj⟩
      · exact Or.inl hb
      · refine Or.inr ⟨j, ?_⟩
        rw [hpart j x hxa]
        exact hj

theorem Shares.malloc (h : Shares base parts self.blocks) (i : ι) (v : α) :
    Shares base (Function.update parts i (Function.update (parts i) self.next (some v)))
      (self.malloc v).1.blocks :=
  h.set (some v) (Or.inr (self.fresh _ (Nat.le_refl _)))

theorem Shares.free (h : Shares base parts self.blocks) (hv : parts i a = some v) :
    ∃ self', self.free a = some self' ∧
      Shares base (Function.update parts i (Function.update (parts i) a none)) self'.blocks := by
  have hne : parts i a ≠ none := by simp [hv]
  have hsome : (self.blocks a).isSome := by
    rw [h.part_le i a hne, hv]
    rfl
  refine ⟨self.set a none (lt_next hsome), ?_, h.set none (Or.inl hne)⟩
  rw [Heap.free, dif_pos hsome]

theorem Shares.write (h : Shares base parts self.blocks) (hv : parts i a = some v) (w : α) :
    ∃ self', self.write a w = some self' ∧
      Shares base (Function.update parts i (Function.update (parts i) a (some w)))
        self'.blocks := by
  have hne : parts i a ≠ none := by simp [hv]
  have hsome : (self.blocks a).isSome := by
    rw [h.part_le i a hne, hv]
    rfl
  refine ⟨self.set a (some w) (lt_next hsome), ?_, h.set (some w) (Or.inl hne)⟩
  rw [Heap.write, dif_pos hsome]

/-- The owner of a block has it afterwards, at its address or another one that was nobody's. -/
theorem Shares.realloc (h : Shares base parts self.blocks) (hv : parts i a = some v)
    (resize : α → α) :
    ∃ self' a', self.realloc a resize = some (self', a') ∧
      (a' = a ∨ parts i a' = none) ∧
      Shares base (Function.update parts i
        (Function.update (Function.update (parts i) a none) a' (some (resize v))))
        self'.blocks := by
  have hne : parts i a ≠ none := by simp [hv]
  have hblock : self.blocks a = some v := by rw [h.part_le i a hne, hv]
  have hdecided : Shares base parts self.decided.blocks := h
  rw [Heap.realloc, hblock]
  by_cases hmoves : self.moves 0 = true
  · obtain ⟨heap, hfree, hshares⟩ := hdecided.free hv
    refine ⟨(heap.malloc (resize v)).1, heap.next, ?_, Or.inr ?_, ?_⟩
    · simp [hmoves, hfree, Heap.malloc]
    · by_contra hsome
      have hlt : heap.next < self.next :=
        lt_next (by rw [h.part_le i _ hsome]; exact Option.isSome_iff_ne_none.mpr hsome)
      have hle := ((later_decided self).trans (later_free hfree)).next_le
      omega
    · have hnew := hshares.malloc i (resize v)
      rw [Function.update_self, Function.update_idem] at hnew
      exact hnew
  · obtain ⟨heap, hwrite, hshares⟩ := hdecided.write hv (resize v)
    refine ⟨heap, a, ?_, Or.inl rfl, ?_⟩
    · simp [hmoves, hwrite]
    · rw [Function.update_idem]
      exact hshares

end Heap

end GridMq.Library
