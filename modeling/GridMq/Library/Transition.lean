import Mathlib.Logic.Basic

set_option autoImplicit false

/-!
# Labelled transition systems

Runs of a system whose steps carry labels, the invariant rule for them, and runs
all of whose steps meet a condition on the state before the step and its label.
-/

namespace GridMq.Library

universe u v

/-- A labelled transition system. -/
structure System (σ : Type u) (ι : Type v) where
  init : σ → Prop
  step : σ → ι → σ → Prop

namespace System

variable {σ : Type u} {ι : Type v}

/-- A finite run, by the labels of its steps. -/
inductive Run (S : System σ ι) : List ι → σ → Prop where
  | start {s : σ} (h : S.init s) : Run S [] s
  | step {labels : List ι} {s s' : σ} {l : ι} (hrun : Run S labels s) (h : S.step s l s') :
      Run S (labels ++ [l]) s'

/-- The states that some run ends in. -/
def Reachable (S : System σ ι) (s : σ) : Prop := ∃ labels, S.Run labels s

/-- The system without the steps that do not meet a condition. -/
def restrict (S : System σ ι) (G : σ → ι → Prop) : System σ ι where
  init := S.init
  step s l s' := G s l ∧ S.step s l s'

theorem Reachable.start {S : System σ ι} {s : σ} (h : S.init s) : S.Reachable s :=
  ⟨[], .start h⟩

theorem Reachable.step {S : System σ ι} {s s' : σ} {l : ι} (hs : S.Reachable s)
    (h : S.step s l s') : S.Reachable s' := by
  obtain ⟨labels, hrun⟩ := hs
  exact ⟨labels ++ [l], .step hrun h⟩

/-- A property that holds initially and is kept by every step from a reachable
state holds in every reachable state. -/
theorem Reachable.invariant {S : System σ ι} {P : σ → Prop} (hinit : ∀ s, S.init s → P s)
    (hstep : ∀ s l s', S.Reachable s → P s → S.step s l s' → P s') {s : σ}
    (hs : S.Reachable s) : P s := by
  obtain ⟨labels, hrun⟩ := hs
  induction hrun with
  | start h => exact hinit _ h
  | step hrun h ih => exact hstep _ _ _ ⟨_, hrun⟩ ih h

/-- A run that meets the condition is a run. -/
theorem Reachable.of_restrict {S : System σ ι} {G : σ → ι → Prop} {s : σ}
    (hs : (S.restrict G).Reachable s) : S.Reachable s :=
  hs.invariant (fun _ h => .start h) (fun _ _ _ _ hP h => hP.step h.2)

/-- The state a partial step function leads to. -/
def follow (next : σ → ι → Option σ) : σ → List ι → Option σ
  | s, [] => some s
  | s, l :: labels => (next s l).bind fun s' => follow next s' labels

/-- What a step function computes from a reachable state is reachable. -/
theorem Reachable.follow {S : System σ ι} {next : σ → ι → Option σ}
    (hnext : ∀ s l s', next s l = some s' → S.step s l s') {labels : List ι} {s s' : σ}
    (hs : S.Reachable s) (h : System.follow next s labels = some s') : S.Reachable s' := by
  induction labels generalizing s with
  | nil => exact Option.some.inj h ▸ hs
  | cons l labels ih =>
      obtain ⟨s₁, hstep, hrest⟩ := Option.bind_eq_some_iff.mp h
      exact ih (hs.step (hnext s l s₁ hstep)) hrest

/-- The state that a step leads to which is enabled and does not fail. -/
def tryStep {ε : Type} (enabled : Prop) [Decidable enabled] (result : Except ε σ) : Option σ :=
  if enabled then result.toOption else none

theorem tryStep_eq_some {ε : Type} {enabled : Prop} [Decidable enabled] {result : Except ε σ}
    {s : σ} (h : tryStep enabled result = some s) : enabled ∧ result = .ok s := by
  unfold tryStep at h
  split at h
  · rename_i hen
    cases result with
    | error e => exact absurd h (by simp [Except.toOption])
    | ok s' => exact ⟨hen, congrArg Except.ok (Option.some.inj h)⟩
  · exact absurd h (by simp)

/-- The steps from a state on, each with the state it is taken in. -/
inductive Path (S : System σ ι) : σ → List (σ × ι) → σ → Prop where
  | nil (s : σ) : Path S s [] s
  | cons {s s' s'' : σ} {l : ι} {steps : List (σ × ι)} (h : S.step s l s')
      (hrest : Path S s' steps s'') : Path S s ((s, l) :: steps) s''

theorem Reachable.path {S : System σ ι} {s s' : σ} {steps : List (σ × ι)} (hs : S.Reachable s)
    (h : S.Path s steps s') : S.Reachable s' := by
  induction h with
  | nil _ => exact hs
  | cons hstep _ ih => exact ih (hs.step hstep)

/-- The steps of a path, cut in two. -/
theorem Path.split {S : System σ ι} {s s' : σ} {front rest : List (σ × ι)}
    (h : S.Path s (front ++ rest) s') : ∃ s₁, S.Path s front s₁ ∧ S.Path s₁ rest s' := by
  induction front generalizing s with
  | nil => exact ⟨s, .nil s, h⟩
  | cons x front ih =>
      cases h with
      | cons hstep hrest =>
          obtain ⟨s₁, hfront, hrest⟩ := ih hrest
          exact ⟨s₁, .cons hstep hfront, hrest⟩

/-! ## Runs that come to an end -/

/-- Steps with labels in `P` can be taken until `Q` holds, and only finitely many of them
can be taken before. -/
inductive Settles (S : System σ ι) (P : ι → Prop) (Q : σ → Prop) : σ → Prop where
  | done {s : σ} (h : Q s) : Settles S P Q s
  | step {s : σ} (hnext : ∃ l s', P l ∧ S.step s l s')
      (h : ∀ l s', P l → S.step s l s' → Settles S P Q s') : Settles S P Q s

/-- A rank that every such step lowers, where one of them can always be taken. -/
theorem settles_of_rank {S : System σ ι} {P : ι → Prop} {Q I : σ → Prop} (rank : σ → Nat)
    (hkeep : ∀ s l s', I s → P l → S.step s l s' → I s')
    (hnext : ∀ s, I s → ¬Q s → ∃ l s', P l ∧ S.step s l s')
    (hrank : ∀ s l s', I s → ¬Q s → P l → S.step s l s' → rank s' < rank s) {s : σ} (hs : I s) :
    S.Settles P Q s := by
  have hall : ∀ n s, rank s ≤ n → I s → S.Settles P Q s := by
    intro n
    induction n with
    | zero =>
        intro s hn hs
        by_cases hQ : Q s
        · exact .done hQ
        · apply Settles.step (hnext s hs hQ)
          intro l s' hl hstep
          exact absurd (hrank s l s' hs hQ hl hstep) (by omega)
    | succ n ih =>
        intro s hn hs
        by_cases hQ : Q s
        · exact .done hQ
        · apply Settles.step (hnext s hs hQ)
          intro l s' hl hstep
          have hlt := hrank s l s' hs hQ hl hstep
          exact ih s' (by omega) (hkeep s l s' hs hl hstep)
  exact hall (rank s) s (Nat.le_refl _) hs

end System

end GridMq.Library
