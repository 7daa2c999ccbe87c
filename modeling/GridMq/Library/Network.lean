import GridMq.Library.Journal
import GridMq.Library.Transition

set_option autoImplicit false

/-!
# Parties that talk over channels

Every party is a system of its own.  The label of a step says what the party sends and which
message arrives; a message arrives only when the channel carries it, and a channel carries what
was sent on it one after the other.  Nothing else is known of the time that messages take.
-/

namespace GridMq.Library

variable {ν κ α : Type} {σ ι : ν → Type}

/-- Parties, and the channels between them. -/
structure Network (ν κ α : Type) (σ ι : ν → Type) where
  party : ∀ i, System (σ i) (ι i)
  source : κ → ν
  target : κ → ν
  sends : ∀ i, ι i → List (κ × α)
  arrival : ∀ i, ι i → Option (κ × α)

/-- The states of the parties, the steps they have taken, and how many messages each channel has
carried. -/
structure NetworkState (κ : Type) (σ ι : ν → Type) where
  parties : ∀ i, σ i
  trace : ∀ i, List (ι i)
  carried : κ → Nat

namespace Network

variable [DecidableEq ν] [DecidableEq κ] (net : Network ν κ α σ ι)

/-- What was sent on a channel. -/
def sentOn (s : NetworkState κ σ ι) (c : κ) : List α :=
  entries c ((s.trace (net.source c)).flatMap (net.sends (net.source c)))

/-- What arrived from a channel. -/
def arrivedOn (s : NetworkState κ σ ι) (c : κ) : List α :=
  entries c ((s.trace (net.target c)).filterMap (net.arrival (net.target c)))

/-- A party took a step. -/
def moved (s : NetworkState κ σ ι) (i : ν) (l : ι i) (p : σ i) : NetworkState κ σ ι :=
  { s with
    parties := Function.update s.parties i p
    trace := Function.update s.trace i (s.trace i ++ [l]) }

/-- A step of the network. -/
inductive Step (s : NetworkState κ σ ι) : (i : ν) × ι i → NetworkState κ σ ι → Prop where
  /-- a step of a party for which nothing arrives -/
  | act {i : ν} {l : ι i} {p : σ i} (hstep : (net.party i).step (s.parties i) l p)
      (hnone : net.arrival i l = none) : Step s ⟨i, l⟩ (moved s i l p)
  /-- the next message of a channel arrives -/
  | carry {c : κ} {a : α} {l : ι (net.target c)} {p : σ (net.target c)}
      (hstep : (net.party (net.target c)).step (s.parties (net.target c)) l p)
      (harrival : net.arrival (net.target c) l = some (c, a))
      (hnext : (net.sentOn s c)[s.carried c]? = some a) :
      Step s ⟨net.target c, l⟩
        { moved s (net.target c) l p with
          carried := Function.update s.carried c (s.carried c + 1) }

/-- The network from the start on. -/
def system : System (NetworkState κ σ ι) ((i : ν) × ι i) where
  init s := (∀ i, (net.party i).init (s.parties i)) ∧ (∀ i, s.trace i = []) ∧ ∀ c, s.carried c = 0
  step := net.Step

variable {net} {s s' : NetworkState κ σ ι}

omit [DecidableEq κ] in
/-- The steps of a party are a run of it. -/
theorem run_moved {i : ν} {l : ι i} {p : σ i}
    (h : ∀ j, (net.party j).Run (s.trace j) (s.parties j))
    (hstep : (net.party i).step (s.parties i) l p) (j : ν) :
    (net.party j).Run ((moved s i l p).trace j) ((moved s i l p).parties j) := by
  unfold moved
  rcases eq_or_ne j i with rfl | hj
  · simp only [Function.update_self]
    exact .step (h j) hstep
  · simp only [Function.update_of_ne hj]
    exact h j

/-- In a network every party runs as it does on its own. -/
theorem run_party (h : net.system.Reachable s) (i : ν) :
    (net.party i).Run (s.trace i) (s.parties i) := by
  revert i
  refine h.invariant (P := fun s => ∀ i, (net.party i).Run (s.trace i) (s.parties i)) ?_ ?_
  · intro s hinit i
    rw [hinit.2.1 i]
    exact .start (hinit.1 i)
  · intro s l s' _ hrun hstep
    cases hstep with
    | act hstep hnone => exact run_moved hrun hstep
    | carry hstep harrival hnext => exact run_moved hrun hstep

/-- What was sent stays sent. -/
theorem sentOn_moved {i : ν} {l : ι i} (p : σ i) (c : κ) :
    net.sentOn s c <+: net.sentOn (moved s i l p) c := by
  unfold sentOn moved
  rcases eq_or_ne (net.source c) i with hi | hi
  · subst hi
    simp only [Function.update_self, List.flatMap_append, entries_append]
    exact List.prefix_append _ _
  · simp only [Function.update_of_ne hi]
    exact List.prefix_refl _

/-- A step for which nothing arrives adds nothing to what arrived. -/
theorem arrivedOn_moved {i : ν} {l : ι i} (p : σ i) {c : κ}
    (hother : ∀ a, net.arrival i l ≠ some (c, a)) :
    net.arrivedOn (moved s i l p) c = net.arrivedOn s c := by
  unfold arrivedOn moved
  rcases eq_or_ne (net.target c) i with hi | hi
  · subst hi
    have hnew : entries c ([l].filterMap (net.arrival (net.target c))) = [] := by
      apply entries_eq_nil
      intro e he hc
      obtain ⟨l', hl', heq⟩ := List.mem_filterMap.mp he
      obtain rfl := List.mem_singleton.mp hl'
      exact hother e.2 (by rw [heq, ← hc])
    simp only [Function.update_self, List.filterMap_append, entries_append, hnew, List.append_nil]
  · simp only [Function.update_of_ne hi]

theorem arrivedOn_carry {c : κ} {a : α} {l : ι (net.target c)} {p : σ (net.target c)}
    (harrival : net.arrival (net.target c) l = some (c, a)) :
    net.arrivedOn (moved s (net.target c) l p) c = net.arrivedOn s c ++ [a] := by
  unfold arrivedOn moved
  simp only [Function.update_self, List.filterMap_append, entries_append, List.filterMap_cons,
    harrival, List.filterMap_nil, entries_cons_self, entries_nil]

/-- How far a channel is. -/
def Carried (net : Network ν κ α σ ι) (s : NetworkState κ σ ι) (c : κ) : Prop :=
  s.carried c ≤ (net.sentOn s c).length ∧
    net.arrivedOn s c = (net.sentOn s c).take (s.carried c)

omit [DecidableEq ν] in
/-- More that is sent does not change what arrived. -/
theorem Carried.sent {c : κ} (h : Carried net s c) (hcarried : s'.carried c = s.carried c)
    (hsent : net.sentOn s c <+: net.sentOn s' c)
    (harrived : net.arrivedOn s' c = net.arrivedOn s c) : Carried net s' c := by
  obtain ⟨more, hmore⟩ := hsent
  refine ⟨?_, ?_⟩
  · have hlen := h.1
    rw [hcarried, ← hmore, List.length_append]
    omega
  · rw [harrived, hcarried, ← hmore, List.take_append_of_le_length h.1]
    exact h.2

/-- A channel keeps the order: what arrived is what was sent first. -/
theorem carried_of_reachable (h : net.system.Reachable s) (c : κ) : Carried net s c := by
  revert c
  refine h.invariant (P := fun s => ∀ c, Carried net s c) ?_ ?_
  · intro s hinit c
    refine ⟨?_, ?_⟩
    · rw [hinit.2.2 c]
      exact Nat.zero_le _
    · rw [hinit.2.2 c, arrivedOn, hinit.2.1]
      rfl
  · intro s l s' _ hall hstep c
    cases hstep with
    | @act i l p hstep hnone =>
        refine (hall c).sent rfl (sentOn_moved p c) (arrivedOn_moved p ?_)
        intro a ha
        exact absurd (hnone.symm.trans ha) (by simp)
    | @carry c' a l p hstep harrival hnext =>
        rcases eq_or_ne c c' with rfl | hc
        · obtain ⟨more, hmore⟩ : net.sentOn s c <+:
              net.sentOn (moved s (net.target c) l p) c := sentOn_moved p c
          obtain ⟨hlt, hget⟩ := List.getElem?_eq_some_iff.mp hnext
          refine ⟨?_, ?_⟩
          · change Function.update s.carried c (s.carried c + 1) c ≤
              (net.sentOn (moved s (net.target c) l p) c).length
            rw [Function.update_self, ← hmore, List.length_append]
            omega
          · change net.arrivedOn (moved s (net.target c) l p) c =
              (net.sentOn (moved s (net.target c) l p) c).take
                (Function.update s.carried c (s.carried c + 1) c)
            rw [Function.update_self, arrivedOn_carry harrival, (hall c).2, ← hmore,
              List.take_append_of_le_length hlt, List.take_succ_eq_append_getElem hlt, hget]
        · refine (hall c).sent (Function.update_of_ne hc _ _) (sentOn_moved p c)
            (arrivedOn_moved p ?_)
          intro b hb
          obtain ⟨heq, -⟩ := Prod.mk.inj (Option.some.inj (harrival.symm.trans hb))
          exact hc heq.symm

/-- What arrives at a party comes over a channel that leads to it. -/
theorem target_of_arrival (h : net.system.Reachable s) (i : ν) :
    ∀ e ∈ (s.trace i).filterMap (net.arrival i), net.target e.1 = i := by
  revert i
  have hmoved : ∀ (s : NetworkState κ σ ι) (j : ν) (l : ι j) (p : σ j),
      (∀ i, ∀ e ∈ (s.trace i).filterMap (net.arrival i), net.target e.1 = i) →
      (∀ e, net.arrival j l = some e → net.target e.1 = j) →
      ∀ i, ∀ e ∈ ((moved s j l p).trace i).filterMap (net.arrival i), net.target e.1 = i := by
    intro s j l p hall hnew i e he
    unfold moved at he
    rcases eq_or_ne i j with rfl | hi
    · simp only [Function.update_self, List.filterMap_append, List.mem_append] at he
      rcases he with he | he
      · exact hall i e he
      · obtain ⟨l', hl', heq⟩ := List.mem_filterMap.mp he
        obtain rfl := List.mem_singleton.mp hl'
        exact hnew e heq
    · simp only [Function.update_of_ne hi] at he
      exact hall i e he
  refine h.invariant
    (P := fun s => ∀ i, ∀ e ∈ (s.trace i).filterMap (net.arrival i), net.target e.1 = i) ?_ ?_
  · intro s hinit i e he
    rw [hinit.2.1 i] at he
    exact absurd he (by simp)
  · intro s l s' _ hall hstep
    cases hstep with
    | @act j l p hstep hnone =>
        refine hmoved s j l p hall ?_
        intro e he
        exact absurd (hnone.symm.trans he) (by simp)
    | @carry c a l p hstep harrival hnext =>
        refine hmoved s _ l p hall ?_
        intro e he
        obtain rfl := Option.some.inj (harrival.symm.trans he)
        rfl

/-- The party that a step is about takes it, and no other party moves. -/
theorem step_moves {i : ν} {l : ι i} (h : net.system.step s ⟨i, l⟩ s') :
    (net.party i).step (s.parties i) l (s'.parties i) ∧ s'.trace i = s.trace i ++ [l] ∧
      (∀ j, j ≠ i → s'.parties j = s.parties j ∧ s'.trace j = s.trace j) ∧
      ∀ c, net.sentOn s c <+: net.sentOn s' c := by
  have hmoved : ∀ p, (net.party i).step (s.parties i) l p →
      (net.party i).step (s.parties i) l ((moved s i l p).parties i) ∧
        (moved s i l p).trace i = s.trace i ++ [l] ∧
        (∀ j, j ≠ i → (moved s i l p).parties j = s.parties j ∧
          (moved s i l p).trace j = s.trace j) ∧
        ∀ c, net.sentOn s c <+: net.sentOn (moved s i l p) c := by
    intro p hstep
    refine ⟨?_, Function.update_self _ _ _, ?_, sentOn_moved p⟩
    · rw [show (moved s i l p).parties i = p from Function.update_self _ _ _]
      exact hstep
    · intro j hj
      exact ⟨Function.update_of_ne hj _ _, Function.update_of_ne hj _ _⟩
  cases h with
  | act hstep hnone => exact hmoved _ hstep
  | carry hstep harrival hnext => exact hmoved _ hstep

section Compute

variable [DecidableEq α] (net)

/-- The step that a label says, where the parties compute theirs. -/
def tryStep (next : ∀ i, σ i → ι i → Option (σ i)) (s : NetworkState κ σ ι)
    (x : (i : ν) × ι i) : Option (NetworkState κ σ ι) :=
  match net.arrival x.1 x.2 with
  | none => (next x.1 (s.parties x.1) x.2).map (moved s x.1 x.2)
  | some e =>
      if net.target e.1 = x.1 ∧ (net.sentOn s e.1)[s.carried e.1]? = some e.2 then
        (next x.1 (s.parties x.1) x.2).map fun p =>
          { moved s x.1 x.2 p with
            carried := Function.update s.carried e.1 (s.carried e.1 + 1) }
      else none

theorem step_of_tryStep {net : Network ν κ α σ ι} {next : ∀ i, σ i → ι i → Option (σ i)}
    (hnext : ∀ i p l p', next i p l = some p' → (net.party i).step p l p') {x : (i : ν) × ι i}
    (h : net.tryStep next s x = some s') : net.system.step s x s' := by
  obtain ⟨i, l⟩ := x
  unfold tryStep at h
  split at h
  · rename_i hnone
    obtain ⟨p, hp, rfl⟩ := Option.map_eq_some_iff.mp h
    exact .act (hnext _ _ _ _ hp) hnone
  · rename_i e harrival
    split at h
    · rename_i hcarry
      obtain ⟨c, a⟩ := e
      obtain ⟨htarget, hsent⟩ := hcarry
      simp only at htarget
      subst htarget
      obtain ⟨p, hp, rfl⟩ := Option.map_eq_some_iff.mp h
      exact .carry (hnext _ _ _ _ hp) harrival hsent
    · exact absurd h (by simp)

end Compute

end Network

end GridMq.Library
