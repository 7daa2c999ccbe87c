set_option autoImplicit false

/-!
# How the process ends (`src/utils/err.h`)

The checks of the source abort the process when they fail.  A modelled function
that may run into one returns `Except Abort`.
-/

namespace GridMq

/-- The check that ended the process. -/
inductive Abort where
  /-- `grid_assert`, `grid_assert_state` -/
  | assertion
  /-- `errnum_assert`, `errno_assert` -/
  | errnum
  /-- `alloc_assert` -/
  | alloc
  /-- `grid_fsm_bad_state` -/
  | badState
  /-- `grid_fsm_bad_source` -/
  | badSource
  /-- `grid_fsm_bad_action` -/
  | badAction
  /-- a NULL or dangling pointer that is followed -/
  | nullPointer
  deriving DecidableEq, Repr

/-- `grid_assert`. -/
def gridAssert (p : Prop) [Decidable p] : Except Abort Unit :=
  if p then .ok () else .error .assertion

@[simp] theorem gridAssert_pos {p : Prop} [Decidable p] (h : p) :
    gridAssert p = .ok () := by
  simp [gridAssert, h]

@[simp] theorem gridAssert_eq_ok_iff {p : Prop} [Decidable p] {x : Unit} :
    gridAssert p = .ok x ↔ p := by
  by_cases h : p <;> simp [gridAssert, h]

@[simp] theorem ok_bind {ε α β : Type} (a : α) (f : α → Except ε β) :
    (Except.ok a >>= f) = f a := rfl

@[simp] theorem error_bind {ε α β : Type} (e : ε) (f : α → Except ε β) :
    (Except.error e >>= f) = .error e := rfl

@[simp] theorem pure_eq_ok {ε α : Type} (a : α) : (pure a : Except ε α) = .ok a := rfl

/-- What a sequence of calls that returned went through. -/
theorem bind_eq_ok_iff {ε α β : Type} {x : Except ε α} {f : α → Except ε β} {b : β} :
    x >>= f = .ok b ↔ ∃ a, x = .ok a ∧ f a = .ok b := by
  cases x with
  | error e => simp
  | ok a => simp

/-- What a call whose result was mapped came to. -/
theorem map_eq_ok {ε α β : Type} {x : Except ε α} {f : α → β} {b : β} (h : x.map f = .ok b) :
    ∃ a, x = .ok a ∧ f a = b := by
  cases x with
  | error e => exact absurd h (by simp [Except.map])
  | ok a => exact ⟨a, rfl, Except.ok.inj h⟩

end GridMq
