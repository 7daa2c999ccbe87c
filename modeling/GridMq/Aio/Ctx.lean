import GridMq.Utils.Err

set_option autoImplicit false

/-!
# The queue of events of a context (`src/aio/ctx.c`, `src/utils/queue.c`)

A state machine raises its events through a few `struct grid_fsm_event`, each of which
can be queued once.  `item` says which of them an event goes through.
-/

namespace GridMq.Aio

variable {ε ι : Type} [DecidableEq ι] {item : ε → ι}

/-- `grid_ctx_raise`.  An event that is queued already fails an assertion of
`grid_queue_push`. -/
def raiseEvent (item : ε → ι) (events : List ε) (e : ε) : Except Abort (List ε) := do
  gridAssert (item e ∉ events.map item)
  return events ++ [e]

theorem raiseEvent_ok {events : List ε} {e : ε} (h : item e ∉ events.map item) :
    raiseEvent item events e = .ok (events ++ [e]) := by
  rw [raiseEvent, gridAssert_pos h]
  rfl

@[simp] theorem raiseEvent_nil (e : ε) : raiseEvent item [] e = .ok [e] :=
  raiseEvent_ok (by simp)

/-- An event that a call returns for its owner. -/
def raiseEvent? (item : ε → ι) (events : List ε) (e : Option ε) : Except Abort (List ε) :=
  match e with
  | none => .ok events
  | some e => raiseEvent item events e

@[simp] theorem raiseEvent?_none (events : List ε) :
    raiseEvent? item events none = .ok events := rfl

@[simp] theorem raiseEvent?_some (events : List ε) (e : ε) :
    raiseEvent? item events (some e) = raiseEvent item events e := rfl

theorem raiseEvent?_nil (e : Option ε) : raiseEvent? item [] e = .ok e.toList := by
  cases e <;> simp

/-! ## Machines that were asked to stop -/

section Ending

variable {busy rest : Prop} {e last : ε} {q : List ε}

/-- A machine whose events in the queue are `q` was asked to stop: it is busy with that, or
it rests and its last event is in the queue. -/
def Ending (busy rest : Prop) (last : ε) (q : List ε) : Prop :=
  busy ∧ last ∉ q ∨ rest ∧ ∃ pre, q = pre ++ [last] ∧ last ∉ pre

theorem Ending.still (h : busy) (hq : last ∉ q) : Ending busy rest last q := Or.inl ⟨h, hq⟩

/-- It comes to rest. -/
theorem Ending.raised (h : rest) (hq : last ∉ q) : Ending busy rest last (q ++ [last]) :=
  Or.inr ⟨h, q, rfl, hq⟩

/-- As long as it has not come to rest, none of its events says so. -/
theorem Ending.nil (h : Ending busy rest last []) : busy := by
  rcases h with ⟨hbusy, -⟩ | ⟨-, pre, hq, -⟩
  · exact hbusy
  · exact absurd hq (by simp)

/-- Its last event comes last. -/
theorem Ending.of_last (h : Ending busy rest last (last :: q)) : rest ∧ q = [] := by
  rcases h with ⟨-, hq⟩ | ⟨hrest, pre, hq, hpre⟩
  · exact absurd List.mem_cons_self hq
  · refine ⟨hrest, ?_⟩
    cases pre with
    | nil => exact (List.cons_eq_cons.mp hq).2
    | cons a pre =>
        obtain ⟨ha, -⟩ := List.cons_eq_cons.mp hq
        exact absurd (ha ▸ List.mem_cons_self) hpre

/-- Its other events change nothing. -/
theorem Ending.tail (h : Ending busy rest last (e :: q)) (he : e ≠ last) :
    Ending busy rest last q := by
  rcases h with ⟨hbusy, hq⟩ | ⟨hrest, pre, hq, hpre⟩
  · exact Or.inl ⟨hbusy, fun h => hq (List.mem_cons_of_mem e h)⟩
  · cases pre with
    | nil => exact absurd (List.cons_eq_cons.mp hq).1 he
    | cons a pre =>
        obtain ⟨-, hrest'⟩ := List.cons_eq_cons.mp hq
        exact Or.inr ⟨hrest, pre, hrest', fun h => hpre (List.mem_cons_of_mem a h)⟩

end Ending

end GridMq.Aio
