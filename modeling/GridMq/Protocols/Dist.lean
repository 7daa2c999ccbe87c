import GridMq.Utils.Err
import Mathlib.Data.List.Nodup

set_option autoImplicit false

/-!
# The distributor (`src/protocols/utils/dist.c`)

A message goes to every pipe that is ready for it.  The pipes themselves are part of the
socket: `σ` is its state and `pipeSend` sends on one of its pipes and says whether
the pipe is released.
-/

namespace GridMq.Protocols

/-- `struct grid_dist`. -/
structure Dist where
  count : Nat := 0
  pipes : List Nat := []
  deriving DecidableEq, Repr

namespace Dist

variable {σ : Type}

/-- `grid_dist_rm`. -/
def rm (self : Dist) (p : Nat) : Dist :=
  if p ∈ self.pipes then { count := self.count - 1, pipes := self.pipes.erase p } else self

/-- `grid_dist_out`.  Inserting an item that is in the list already is an assertion of
`grid_list_insert`. -/
def out (self : Dist) (p : Nat) : Except Abort Dist := do
  gridAssert (p ∉ self.pipes)
  return { count := self.count + 1, pipes := self.pipes ++ [p] }

/-- A pipe that is removed is not ready any more; the number stays right. -/
theorem rm_count {d : Dist} (hcount : d.count = d.pipes.length) (hnodup : d.pipes.Nodup)
    (p : Nat) : (d.rm p).count = (d.rm p).pipes.length ∧ (d.rm p).pipes.Nodup ∧
      ∀ q, q ∈ (d.rm p).pipes ↔ q ∈ d.pipes ∧ q ≠ p := by
  unfold rm
  split
  · rename_i hp
    refine ⟨?_, hnodup.erase p, ?_⟩
    · rw [List.length_erase_of_mem hp, hcount]
    · intro q
      rw [hnodup.mem_erase_iff, and_comm]
  · rename_i hp
    refine ⟨hcount, hnodup, ?_⟩
    intro q
    refine ⟨fun hq => ⟨hq, ?_⟩, fun hq => hq.1⟩
    rintro rfl
    exact hp hq

/-- The loop of `grid_dist_send` over the pipes that are left. -/
def sendTo (pipeSend : σ → Nat → Except Abort (σ × Bool)) (exclude : Option Nat) :
    List Nat → Nat → σ → Except Abort (Dist × σ)
  | [], count, s => .ok ({ count := count, pipes := [] }, s)
  | p :: rest, count, s =>
      if exclude = some p then do
        let r ← sendTo pipeSend exclude rest count s
        return ({ r.1 with pipes := p :: r.1.pipes }, r.2)
      else do
        let sent ← pipeSend s p
        if sent.2 then sendTo pipeSend exclude rest (count - 1) sent.1
        else
          let r ← sendTo pipeSend exclude rest count sent.1
          return ({ r.1 with pipes := p :: r.1.pipes }, r.2)

/-- `grid_dist_send`. -/
def send (pipeSend : σ → Nat → Except Abort (σ × Bool)) (exclude : Option Nat) (self : Dist)
    (s : σ) : Except Abort (Dist × σ) :=
  if self.count = 0 then .ok (self, s)
  else sendTo pipeSend exclude self.pipes self.count s

/-- A relation between the states before and after that every pipe's send respects holds
for the whole loop. -/
theorem sendTo_induction {pipeSend : σ → Nat → Except Abort (σ × Bool)}
    {exclude : Option Nat} {R : σ → σ → Prop} (hrefl : ∀ s, R s s)
    (hstep : ∀ s p r s', pipeSend s p = .ok r → R r.1 s' → R s s') (pipes : List Nat) :
    ∀ {count : Nat} {s : σ} {r : Dist × σ},
      sendTo pipeSend exclude pipes count s = .ok r → R s r.2 := by
  induction pipes with
  | nil =>
      intro count s r h
      obtain rfl := Except.ok.inj h
      exact hrefl s
  | cons p rest ih =>
      intro count s r h
      unfold sendTo at h
      split at h
      · obtain ⟨r', hrest, hret⟩ := bind_eq_ok_iff.mp h
        obtain rfl := Except.ok.inj hret
        have hR := ih hrest
        exact hR
      · obtain ⟨sent, hsent, h⟩ := bind_eq_ok_iff.mp h
        split at h
        · exact hstep s p sent _ hsent (ih h)
        · obtain ⟨r', hrest, hret⟩ := bind_eq_ok_iff.mp h
          obtain rfl := Except.ok.inj hret
          have hR := ih hrest
          exact hstep s p sent _ hsent hR

/-- The same of `grid_dist_send`. -/
theorem send_induction {pipeSend : σ → Nat → Except Abort (σ × Bool)}
    {exclude : Option Nat} {R : σ → σ → Prop} (hrefl : ∀ s, R s s)
    (hstep : ∀ s p r s', pipeSend s p = .ok r → R r.1 s' → R s s') {self : Dist} {s : σ}
    {r : Dist × σ} (h : self.send pipeSend exclude s = .ok r) : R s r.2 := by
  unfold send at h
  split at h
  · obtain rfl := Except.ok.inj h
    exact hrefl s
  · exact sendTo_induction hrefl hstep self.pipes h

/-- Where every pipe that is not left out takes the message and is released, the loop comes to
its end with the others. -/
theorem sendTo_spec {pipeSend : σ → Nat → Except Abort (σ × Bool)} {exclude : Option Nat}
    {J : List Nat → σ → Prop}
    (hstep : ∀ p rest s, exclude ≠ some p → J (p :: rest) s →
      ∃ s', pipeSend s p = .ok (s', true) ∧ J rest s')
    (hskip : ∀ p rest s, exclude = some p → J (p :: rest) s → J rest s) (pipes : List Nat) :
    ∀ (count : Nat) {s : σ}, J pipes s → ∃ s', sendTo pipeSend exclude pipes count s = .ok
      ({ count := count - (pipes.filter fun p => exclude ≠ some p).length
         pipes := pipes.filter fun p => exclude = some p }, s') ∧ J [] s' := by
  induction pipes with
  | nil =>
      intro count s h
      exact ⟨s, rfl, h⟩
  | cons p rest ih =>
      intro count s h
      rcases eq_or_ne exclude (some p) with hp | hp
      · obtain ⟨s', hloop, hend⟩ := ih count (hskip p rest s hp h)
        refine ⟨s', ?_, hend⟩
        rw [sendTo, if_pos hp, hloop, ok_bind, List.filter_cons_of_neg (by simpa using hp),
          List.filter_cons_of_pos (by simpa using hp)]
        rfl
      · obtain ⟨s', hsend, hrest⟩ := hstep p rest s hp h
        obtain ⟨s'', hloop, hend⟩ := ih (count - 1) hrest
        refine ⟨s'', ?_, hend⟩
        rw [sendTo, if_neg hp, hsend, ok_bind, if_pos rfl, hloop,
          List.filter_cons_of_pos (by simpa using hp), List.filter_cons_of_neg (by simpa using hp),
          List.length_cons, Nat.sub_sub, Nat.add_comm]

/-- The same of `grid_dist_send`. -/
theorem send_spec {pipeSend : σ → Nat → Except Abort (σ × Bool)} {exclude : Option Nat}
    {J : List Nat → σ → Prop}
    (hstep : ∀ p rest s, exclude ≠ some p → J (p :: rest) s →
      ∃ s', pipeSend s p = .ok (s', true) ∧ J rest s')
    (hskip : ∀ p rest s, exclude = some p → J (p :: rest) s → J rest s)
    {self : Dist} (hcount : self.count = self.pipes.length) {s : σ} (h : J self.pipes s) :
    ∃ s', self.send pipeSend exclude s = .ok
      ({ count := (self.pipes.filter fun p => exclude = some p).length
         pipes := self.pipes.filter fun p => exclude = some p }, s') ∧ J [] s' := by
  unfold send
  split
  · rename_i hzero
    have hnil : self.pipes = [] := List.length_eq_zero_iff.mp (hcount.symm.trans hzero)
    obtain ⟨count, pipes⟩ := self
    simp only at hzero hnil
    subst hzero hnil
    exact ⟨s, rfl, h⟩
  · obtain ⟨s', hloop, hend⟩ := sendTo_spec hstep hskip self.pipes self.count h
    refine ⟨s', ?_, hend⟩
    have hparts := List.length_eq_length_filter_add (l := self.pipes) fun p => exclude = some p
    have hothers : (self.pipes.filter fun p => !decide (exclude = some p)) =
        self.pipes.filter fun p => exclude ≠ some p := by
      simp
    rw [hothers] at hparts
    have hleft : self.count - (self.pipes.filter fun p => exclude ≠ some p).length =
        (self.pipes.filter fun p => exclude = some p).length := by
      omega
    rw [hloop, hleft]

/-- Where every pipe takes the message and is released, none is left. -/
theorem send_released {pipeSend : σ → Nat → Except Abort (σ × Bool)}
    {J : List Nat → σ → Prop}
    (hstep : ∀ p rest s, J (p :: rest) s → ∃ s', pipeSend s p = .ok (s', true) ∧ J rest s')
    {self : Dist} (hcount : self.count = self.pipes.length) {s : σ} (h : J self.pipes s) :
    ∃ s', self.send pipeSend none s = .ok ({ count := 0, pipes := [] }, s') ∧ J [] s' := by
  have hnone : ∀ (p : Nat) (rest : List Nat) (s : σ), none = some p → J (p :: rest) s →
      J rest s := by
    intro p rest s hp
    exact absurd hp (by simp)
  obtain ⟨s', hsend, hend⟩ := send_spec (fun p rest s _ => hstep p rest s) hnone hcount h
  refine ⟨s', ?_, hend⟩
  rw [hsend]
  simp

end Dist

end GridMq.Protocols
