import GridMq.Utils.Err
import Mathlib.Algebra.Group.Nat.Defs

set_option autoImplicit false

/-!
# Memory for messages (`src/utils/chunk.c`, `src/utils/chunkref.c`)

Sizes are 64 bits wide.  The allocator gives no object of more than `PTRDIFF_MAX`
bytes; smaller ones are taken to be available.
-/

namespace GridMq

/-- `GRID_CHUNKREF_MAX`. -/
def chunkrefMax : Nat := 32

/-- `grid_chunk_hdrsize`. -/
def chunkHdrsize : Nat := 32

/-- `PTRDIFF_MAX`. -/
def ptrdiffMax : Nat := 2 ^ 63 - 1

/-- `grid_chunk_alloc`, which fails with `-ENOMEM` when the sum of the sizes wraps or there
is no memory. -/
def chunkAlloc (size : Nat) : Bool :=
  let sz := (chunkHdrsize + size) % 2 ^ 64
  if sz < chunkHdrsize then false else decide (sz ≤ ptrdiffMax)

/-- `grid_chunkref_init`.  Small messages need no memory of their own. -/
def chunkrefInit (size : Nat) : Except Abort Unit :=
  if size < chunkrefMax then .ok ()
  else if chunkAlloc size then .ok ()
  else .error .errnum

/-- A size that can be allocated. -/
def Fits (size : Nat) : Prop := chunkHdrsize + size ≤ ptrdiffMax

instance (size : Nat) : Decidable (Fits size) :=
  inferInstanceAs (Decidable (_ ≤ _))

/-- Of the sizes that the wire can carry, those that fit are the ones that do not end the
process. -/
theorem chunkrefInit_eq {size : Nat} (h : size < 2 ^ 64) :
    chunkrefInit size = if Fits size then .ok () else .error .errnum := by
  have hmax : chunkrefMax = 32 := rfl
  have hhdr : chunkHdrsize = 32 := rfl
  have hptr : ptrdiffMax = 2 ^ 63 - 1 := rfl
  have hfits : Fits size ↔ chunkHdrsize + size ≤ ptrdiffMax := Iff.rfl
  unfold chunkrefInit chunkAlloc
  by_cases hsmall : size < chunkrefMax
  · have hyes : Fits size := hfits.mpr (by omega)
    rw [if_pos hsmall, if_pos hyes]
  · rw [if_neg hsmall]
    by_cases hwrap : (chunkHdrsize + size) % 2 ^ 64 < chunkHdrsize
    · have hno : ¬ Fits size := fun hyes => by
        have := hfits.mp hyes
        omega
      rw [if_pos hwrap, if_neg hno, if_neg (by simp)]
    · have hmod : (chunkHdrsize + size) % 2 ^ 64 = chunkHdrsize + size := by omega
      rw [if_neg hwrap, hmod]
      simp only [decide_eq_true_eq, hfits]

end GridMq
