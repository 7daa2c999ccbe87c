import GridMq.Library.Transition
import Mathlib.Data.List.Induction

set_option autoImplicit false

/-!
# Machines that are given operations and answer

A machine computes its next state and an answer, or fails.  As a system its labels are the
operations with their answers, so that a run shows what the machine did.
-/

namespace GridMq.Library

variable {σ ω ρ ε : Type}

/-- A machine, and the operations that can be given to it in a state. -/
structure Machine (σ ω ρ ε : Type) where
  init : σ
  Enabled : σ → ω → Prop
  next : σ → ω → Except ε (σ × ρ)

namespace Machine

variable (m : Machine σ ω ρ ε)

/-- The machine from the start on, as long as it does not fail. -/
def system : System σ (ω × ρ) where
  init s := s = m.init
  step s l s' := m.Enabled s l.1 ∧ m.next s l.1 = .ok (s', l.2)

/-- The state that a step leads to, if a check lets the operation pass and the answer is the
expected one. -/
def compute [DecidableEq ρ] (ready : σ → ω → Bool) (s : σ) (l : ω × ρ) : Option σ :=
  (System.tryStep (ready s l.1 = true) (m.next s l.1)).bind fun r =>
    if r.2 = l.2 then some r.1 else none

variable {m}

theorem step_of_compute [DecidableEq ρ] {ready : σ → ω → Bool}
    (hready : ∀ s op, ready s op = true → m.Enabled s op) {s s' : σ} {l : ω × ρ}
    (h : m.compute ready s l = some s') : m.system.step s l s' := by
  obtain ⟨r, hr, hret⟩ := Option.bind_eq_some_iff.mp h
  obtain ⟨hen, hcall⟩ := System.tryStep_eq_some hr
  split at hret
  · rename_i hanswer
    obtain rfl := Option.some.inj hret
    exact ⟨hready _ _ hen, hanswer ▸ hcall⟩
  · exact absurd hret (by simp)

/-- What holds at the start and is kept by every step holds at the end of every run.  It may
speak of the run so far. -/
theorem run_rule {P : List (ω × ρ) → σ → Prop} (hinit : P [] m.init)
    (hstep : ∀ labels s op s' r, P labels s → m.Enabled s op → m.next s op = .ok (s', r) →
      P (labels ++ [(op, r)]) s') {labels : List (ω × ρ)} {s : σ}
    (h : m.system.Run labels s) : P labels s := by
  induction h with
  | start h =>
      obtain rfl := h
      exact hinit
  | @step labels s s' l hrun h ih => exact hstep labels s l.1 s' l.2 ih h.1 h.2

end Machine

/-- A step of a run was taken from a state that the steps before it lead to. -/
theorem System.Run.step_of_mem {ι : Type} {S : System σ ι} {before after : List ι} {l : ι} {s : σ}
    (h : S.Run (before ++ l :: after) s) : ∃ s₁ s₂, S.Run before s₁ ∧ S.step s₁ l s₂ := by
  induction after using List.reverseRecOn generalizing s with
  | nil =>
      generalize hlabels : before ++ [l] = labels at h
      cases h with
      | start h => exact absurd hlabels (by simp)
      | step hrun hstep =>
          obtain ⟨rfl, hl⟩ := List.append_inj' hlabels rfl
          obtain rfl := List.singleton_inj.mp hl
          exact ⟨_, _, hrun, hstep⟩
  | append_singleton after x ih =>
      generalize hlabels : before ++ l :: (after ++ [x]) = labels at h
      cases h with
      | start h => exact absurd hlabels (by simp)
      | @step front s' _ x' hrun hstep =>
          have heq : (before ++ l :: after) ++ [x] = front ++ [x'] := by
            rw [List.append_assoc, List.cons_append]
            exact hlabels
          obtain ⟨rfl, -⟩ := List.append_inj' heq rfl
          exact ih hrun

end GridMq.Library
