import GridMq.Transports.MsgqueueChunks

set_option autoImplicit false

/-!
# A message queue among other chunks

Chunks that are allocated and are not those of the queue stay as they are in all its calls.
-/

namespace GridMq.Transports

open GridMq.Library Msgqueue

namespace QueueMem

/-- The queue, with other chunks that are allocated as well. -/
def onTop (self : QueueMem) (others : Nat → Option QueueChunk) : QueueMem :=
  { self with chunks := fun a => (self.chunks a).or (others a) }

/-- No chunk of the queue is one of the others. -/
def Apart (self : QueueMem) (others : Nat → Option QueueChunk) : Prop :=
  ∀ a, self.chunks a ≠ none → others a = none

variable {q q' : QueueMem} {others : Nat → Option QueueChunk} {a : Nat} {msg : Msg}

@[simp] theorem onTop_count : (q.onTop others).count = q.count := rfl
@[simp] theorem onTop_mem : (q.onTop others).mem = q.mem := rfl
@[simp] theorem onTop_cache : (q.onTop others).cache = q.cache := rfl
@[simp] theorem onTop_outChunk : (q.onTop others).outChunk = q.outChunk := rfl
@[simp] theorem onTop_inChunk : (q.onTop others).inChunk = q.inChunk := rfl

theorem onTop_chunks (a : Nat) : (q.onTop others).chunks a = (q.chunks a).or (others a) := rfl

/-- Where an address is free among all chunks it is free among those of the queue. -/
theorem free_of_onTop (h : (q.onTop others).chunks a = none) :
    q.chunks a = none ∧ others a = none := by
  rw [onTop_chunks] at h
  exact Option.or_eq_none_iff.mp h

theorem deref_eq_ok {p : Option Nat} {c : Nat × QueueChunk} (h : q.deref p = .ok c) :
    p = some c.1 ∧ q.chunks c.1 = some c.2 := by
  unfold deref at h
  split at h
  · cases h
  · split at h
    · cases h
    · rename_i heq
      obtain rfl := Except.ok.inj h
      exact ⟨rfl, heq⟩

theorem deref_onTop {p : Option Nat} {c : Nat × QueueChunk} (h : q.deref p = .ok c) :
    (q.onTop others).deref p = .ok c := by
  obtain ⟨rfl, hc⟩ := deref_eq_ok h
  have hboth : (q.onTop others).chunks c.1 = some c.2 := by
    rw [onTop_chunks, hc]
    rfl
  exact deref_some hboth

/-- A chunk that is not one of the others changes. -/
theorem set_onTop (c : Option QueueChunk) (ha : others a = none) :
    (q.onTop others).set a c = (q.set a c).onTop others := by
  unfold set onTop
  congr 1
  funext b
  by_cases hb : b = a
  · simp [hb, ha]
  · simp [hb]

theorem Apart.set (h : q.Apart others) (c : Option QueueChunk) (ha : others a = none) :
    (q.set a c).Apart others := by
  intro b hb
  rw [set_chunks] at hb
  by_cases hba : b = a
  · rw [hba, ha]
  · rw [if_neg hba] at hb
    exact h b hb

theorem Apart.of_deref (h : q.Apart others) {p : Option Nat} {c : Nat × QueueChunk}
    (hc : q.deref p = .ok c) : others c.1 = none := by
  obtain ⟨-, hthere⟩ := deref_eq_ok hc
  exact h c.1 (by simp [hthere])

/-- A chunk of the queue is freed. -/
theorem free_onTop {p : Option Nat} (h : q.free p = .ok q') (hapart : q.Apart others) :
    (q.onTop others).free p = .ok (q'.onTop others) ∧ q'.Apart others := by
  obtain ⟨c, hc, h⟩ := bind_eq_ok_iff.mp h
  obtain rfl := Except.ok.inj h
  have hother := hapart.of_deref hc
  refine ⟨?_, hapart.set none hother⟩
  rw [free, deref_onTop hc, ok_bind, set_onTop none hother]
  rfl

theorem fill_onTop (hapart : q.Apart others) (ha : others a = none) :
    (q.onTop others).fill a = (q.fill a).onTop others ∧ (q.fill a).Apart others := by
  unfold fill
  cases hcache : q.cache with
  | none =>
    simp only [onTop_cache, hcache, set_onTop (some newChunk) ha]
    exact ⟨rfl, hapart.set (some newChunk) ha⟩
  | some c =>
    simp only [onTop_cache, hcache]
    exact ⟨trivial, hapart⟩

theorem advance_onTop (h : q.advance a = .ok q') (hapart : q.Apart others)
    (ha : others a = none) :
    (q.onTop others).advance a = .ok (q'.onTop others) ∧ q'.Apart others := by
  obtain ⟨hfill, hapart'⟩ := fill_onTop hapart ha
  obtain ⟨c, hc, h⟩ := bind_eq_ok_iff.mp h
  obtain rfl := Except.ok.inj h
  have hother := hapart'.of_deref hc
  refine ⟨?_, hapart'.set _ hother⟩
  simp only [advance, hfill, onTop_outChunk]
  rw [deref_onTop hc, ok_bind]
  simp only [onTop_cache, set_onTop _ hother]
  rfl

/-- A send does the same among other chunks. -/
theorem send_onTop {r : Option QueueMem} (h : q.send a msg = .ok r) (hapart : q.Apart others)
    (ha : others a = none) :
    (q.onTop others).send a msg = .ok (r.map (onTop · others)) ∧
      ∀ q', r = some q' → q'.Apart others := by
  unfold send at h ⊢
  by_cases hfull : q.count > 0 ∧ (q.mem + sizeOf msg) % 2 ^ 64 ≥ q.maxmem
  · rw [if_pos hfull] at h
    obtain rfl := Except.ok.inj h
    refine ⟨if_pos hfull, ?_⟩
    intro q' hq'
    cases hq'
  · rw [if_neg hfull] at h
    obtain ⟨c, hc, h⟩ := bind_eq_ok_iff.mp h
    have hother := hapart.of_deref hc
    have hset := hapart.set (some { c.2 with
      msgs := fun i => if i = q.outPos then msg else c.2.msgs i }) hother
    have hfull' : ¬((q.onTop others).count > 0 ∧
        ((q.onTop others).mem + sizeOf msg) % 2 ^ 64 ≥ (q.onTop others).maxmem) := hfull
    rw [if_neg hfull', onTop_outChunk, deref_onTop hc, ok_bind]
    simp only at h
    by_cases hlast : q.outPos + 1 = msgqueueGranularity
    · rw [if_pos hlast] at h
      obtain ⟨q₁, hadvance, h⟩ := bind_eq_ok_iff.mp h
      obtain rfl := Except.ok.inj h
      obtain ⟨hadvance', hapart'⟩ := advance_onTop hadvance hset ha
      refine ⟨?_, ?_⟩
      · have hlast' : (q.onTop others).outPos + 1 = msgqueueGranularity := hlast
        simp only [if_pos hlast']
        rw [set_onTop _ hother]
        refine bind_eq_ok_iff.mpr ⟨q₁.onTop others, hadvance', rfl⟩
      · intro q' hq'
        cases hq'
        exact hapart'
    · rw [if_neg hlast] at h
      obtain rfl := Except.ok.inj h
      refine ⟨?_, ?_⟩
      · have hlast' : ¬(q.onTop others).outPos + 1 = msgqueueGranularity := hlast
        simp only [if_neg hlast']
        rw [set_onTop _ hother]
        rfl
      · intro q' hq'
        cases hq'
        exact hset

theorem leave_onTop {o : Nat × QueueChunk} (h : q.leave o = .ok q') (hapart : q.Apart others) :
    (q.onTop others).leave o = .ok (q'.onTop others) ∧ q'.Apart others := by
  unfold leave at h ⊢
  cases hcache : q.cache with
  | none =>
    simp only [hcache] at h
    obtain rfl := Except.ok.inj h
    simp only [onTop_cache, hcache]
    exact ⟨rfl, hapart⟩
  | some c =>
    simp only [hcache] at h
    simp only [onTop_cache, hcache]
    exact free_onTop h hapart

/-- So does a receive. -/
theorem recv_onTop {r : Option (Msg × QueueMem)} (h : q.recv = .ok r)
    (hapart : q.Apart others) :
    (q.onTop others).recv = .ok (r.map fun x => (x.1, x.2.onTop others)) ∧
      ∀ msg q', r = some (msg, q') → q'.Apart others := by
  unfold recv at h ⊢
  by_cases hcount : q.count = 0
  · rw [if_pos hcount] at h
    obtain rfl := Except.ok.inj h
    refine ⟨if_pos hcount, ?_⟩
    intro msg q' hq'
    cases hq'
  · rw [if_neg hcount] at h
    obtain ⟨c, hc, h⟩ := bind_eq_ok_iff.mp h
    have hcount' : ¬(q.onTop others).count = 0 := hcount
    rw [if_neg hcount', onTop_inChunk, deref_onTop hc, ok_bind]
    simp only at h
    by_cases hlast : q.inPos + 1 = msgqueueGranularity
    · rw [if_pos hlast] at h
      obtain ⟨q₁, hleave, h⟩ := bind_eq_ok_iff.mp h
      obtain rfl := Except.ok.inj h
      have hmoved : ({ q with inPos := q.inPos + 1 } : QueueMem).Apart others := hapart
      obtain ⟨hleave', hapart'⟩ := leave_onTop hleave hmoved
      refine ⟨?_, ?_⟩
      · have hlast' : (q.onTop others).inPos + 1 = msgqueueGranularity := hlast
        simp only [if_pos hlast']
        refine bind_eq_ok_iff.mpr ⟨q₁.onTop others, hleave', rfl⟩
      · intro msg q' hq'
        cases hq'
        exact hapart'
    · rw [if_neg hlast] at h
      obtain rfl := Except.ok.inj h
      refine ⟨?_, ?_⟩
      · have hlast' : ¬(q.onTop others).inPos + 1 = msgqueueGranularity := hlast
        simp only [if_neg hlast']
        rfl
      · intro msg q' hq'
        cases hq'
        exact hapart

end QueueMem

end GridMq.Transports
