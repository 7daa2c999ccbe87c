import GridMq.Utils.Err
import Mathlib.Data.List.Basic
import Mathlib.Data.List.Nodup

set_option autoImplicit false

/-!
# Prioritised list of pipes (`src/protocols/utils/priolist.c`)

The load balancer and the fair queue keep their active pipes in sixteen lists,
one for each priority, with a current pipe in every list and a current list.
A pipe is named by a number and the intrusive list item is the pair of pipe and
priority.  The `_spec` theorems say what each operation does to the set of
active pipes (`Active`); the socket types know the lists only through them.
-/

namespace GridMq.Protocols

/-- `GRID_PRIOLIST_SLOTS`. -/
def priolistSlots : Nat := 16

/-- `struct grid_priolist_data`. -/
structure PriolistData where
  pipe : Nat
  priority : Nat
  deriving DecidableEq, Repr

/-- `struct grid_priolist_slot`. -/
structure PriolistSlot where
  pipes : List PriolistData := []
  current : Option PriolistData := none

/-- `struct grid_priolist`.  `current` is -1 when it is `none`. -/
structure Priolist where
  slots : Nat → PriolistSlot := fun _ => {}
  current : Option Nat := none

/-- The item behind `x` in a list. -/
def nextItem (x : PriolistData) : List PriolistData → Option PriolistData
  | [] => none
  | y :: rest => if y = x then rest.head? else nextItem x rest

namespace Priolist

/-- `grid_priolist_init`. -/
def init : Priolist := {}

/-- The slot that holds the pipes of a priority. -/
def slot (self : Priolist) (priority : Nat) : PriolistSlot := self.slots (priority - 1)

def setSlot (self : Priolist) (priority : Nat) (s : PriolistSlot) : Priolist :=
  { self with slots := fun i => if i = priority - 1 then s else self.slots i }

/-- The list item is in the list of its priority. -/
def Active (self : Priolist) (d : PriolistData) : Prop := d ∈ (self.slot d.priority).pipes

instance (self : Priolist) (d : PriolistData) : Decidable (self.Active d) :=
  inferInstanceAs (Decidable (d ∈ (self.slot d.priority).pipes))

/-- Switch to the first non-empty slot from priority `c` on, of which `n` are
left. -/
def skipEmpty (self : Priolist) : Nat → Nat → Option Nat
  | 0, _ => none
  | n + 1, c => if (self.slot c).pipes = [] then skipEmpty self n (c + 1) else some c

/-- The loop that leaves empty slots behind. -/
def leaveEmpty (self : Priolist) (c : Nat) : Priolist :=
  { self with current := self.skipEmpty (priolistSlots + 1 - c) c }

/-- `grid_priolist_rm`. -/
def rm (self : Priolist) (d : PriolistData) : Priolist :=
  if self.Active d then
    let s := self.slot d.priority
    let pipes := s.pipes.erase d
    if s.current ≠ some d then self.setSlot d.priority { s with pipes := pipes }
    else
      let current := (nextItem d s.pipes).or pipes.head?
      let self' := self.setSlot d.priority { pipes := pipes, current := current }
      if self.current ≠ some d.priority then self' else self'.leaveEmpty d.priority
  else self

/-- `grid_priolist_activate`.  Inserting an item that is in a list already is an
assertion of `grid_list_insert`. -/
def activate (self : Priolist) (d : PriolistData) : Except Abort Priolist := do
  gridAssert (¬ self.Active d)
  let s := self.slot d.priority
  if s.pipes ≠ [] then
    return self.setSlot d.priority { s with pipes := s.pipes ++ [d] }
  else
    let self' := self.setSlot d.priority { pipes := [d], current := some d }
    match self.current with
    | none => return { self' with current := some d.priority }
    | some c =>
        return if c > d.priority then { self' with current := some d.priority } else self'

/-- `grid_priolist_is_active`. -/
def isActive (self : Priolist) : Bool := self.current.isSome

/-- `grid_priolist_getpipe`. -/
def getpipe (self : Priolist) : Except Abort (Option PriolistData) :=
  match self.current with
  | none => .ok none
  | some c =>
      match (self.slot c).current with
      | none => .error .nullPointer
      | some d => .ok (some d)

/-- `grid_priolist_advance`. -/
def advance (self : Priolist) (release : Bool) : Except Abort Priolist :=
  match self.current with
  | none => .error .assertion
  | some c =>
      let s := self.slot c
      match s.current with
      | none => .error .nullPointer
      | some d =>
          let pipes := if release then s.pipes.erase d else s.pipes
          let current := (nextItem d s.pipes).or pipes.head?
          .ok ((self.setSlot c { pipes := pipes, current := current }).leaveEmpty c)

/-- `grid_priolist_get_priority`. -/
def getPriority (self : Priolist) : Int :=
  match self.current with
  | none => -1
  | some c => c

/-! ## The invariant -/

/-- Lists hold pipes of their priority once each, and every slot's current pipe
is in its list. -/
structure SlotsWF (l : Priolist) : Prop where
  range : ∀ i, ∀ d ∈ (l.slots i).pipes, d.priority = i + 1 ∧ i < priolistSlots
  nodup : ∀ i, (l.slots i).pipes.Nodup
  slotNone : ∀ i, (l.slots i).current = none → (l.slots i).pipes = []
  slotSome : ∀ i d, (l.slots i).current = some d → d ∈ (l.slots i).pipes

/-- The current priority is the best one in use. -/
structure WF (l : Priolist) : Prop extends SlotsWF l where
  currentNone : l.current = none → ∀ i, (l.slots i).pipes = []
  currentSome : ∀ c, l.current = some c → 1 ≤ c ∧ (l.slot c).pipes ≠ [] ∧
    ∀ i, i < c - 1 → (l.slots i).pipes = []

theorem wf_init : init.WF where
  range := by simp [init]
  nodup := by simp [init]
  slotNone := by simp [init]
  slotSome := by simp [init]
  currentNone := by simp [init]
  currentSome := by simp [init]

@[simp] theorem not_active_init (d : PriolistData) : ¬ init.Active d := by
  simp [Active, init, slot]

/-- An active pipe is in the slot of its priority. -/
theorem WF.active_iff {self : Priolist} (h : self.WF) {d : PriolistData} :
    self.Active d ↔ ∃ i, d ∈ (self.slots i).pipes := by
  constructor
  · intro hd
    exact ⟨d.priority - 1, hd⟩
  · rintro ⟨i, hi⟩
    have hprio := (h.range i d hi).1
    have : d.priority - 1 = i := by omega
    rw [Active, slot, this]
    exact hi

theorem WF.active_range {self : Priolist} (h : self.WF) {d : PriolistData}
    (hd : self.Active d) : 1 ≤ d.priority ∧ d.priority ≤ priolistSlots := by
  obtain ⟨i, hi⟩ := h.active_iff.mp hd
  have := h.range i d hi
  omega

theorem WF.isActive_iff {self : Priolist} (h : self.WF) :
    self.isActive = true ↔ ∃ d, self.Active d := by
  unfold isActive
  cases hc : self.current with
  | none =>
      simp only [Option.isSome_none, Bool.false_eq_true, false_iff, not_exists]
      intro d hd
      have hempty := h.currentNone hc (d.priority - 1)
      rw [Active, slot, hempty] at hd
      exact List.not_mem_nil hd
  | some c =>
      simp only [Option.isSome_some, true_iff]
      obtain ⟨-, hne, -⟩ := h.currentSome c hc
      obtain ⟨d, hd⟩ := List.exists_mem_of_ne_nil _ hne
      exact ⟨d, h.active_iff.mpr ⟨c - 1, hd⟩⟩

/-! ## One slot replaced -/

theorem slots_setSlot (self : Priolist) (c i : Nat) (s : PriolistSlot) :
    (self.setSlot c s).slots i = if i = c - 1 then s else self.slots i := rfl

theorem setSlot_current (self : Priolist) (c : Nat) (s : PriolistSlot) :
    (self.setSlot c s).current = self.current := rfl

theorem skipEmpty_none {self : Priolist} :
    ∀ {n c : Nat}, 1 ≤ c → self.skipEmpty n c = none →
      ∀ i, c - 1 ≤ i → i < c - 1 + n → (self.slots i).pipes = [] := by
  intro n
  induction n with
  | zero =>
      intro c _ _ i h1 h2
      omega
  | succ n ih =>
      intro c hc h i h1 h2
      rw [skipEmpty] at h
      split at h
      · rename_i hempty
        by_cases hi : i = c - 1
        · rw [hi]
          exact hempty
        · exact ih (by omega) h i (by omega) (by omega)
      · exact absurd h (by simp)

theorem skipEmpty_some {self : Priolist} :
    ∀ {n c c' : Nat}, 1 ≤ c → self.skipEmpty n c = some c' →
      c ≤ c' ∧ (self.slot c').pipes ≠ [] ∧
        ∀ i, c - 1 ≤ i → i < c' - 1 → (self.slots i).pipes = [] := by
  intro n
  induction n with
  | zero =>
      intro c c' _ h
      simp [skipEmpty] at h
  | succ n ih =>
      intro c c' hc h
      rw [skipEmpty] at h
      split at h
      · rename_i hempty
        obtain ⟨hle, hne, hall⟩ := ih (by omega) h
        refine ⟨by omega, hne, ?_⟩
        intro i h1 h2
        by_cases hi : i = c - 1
        · rw [hi]
          exact hempty
        · exact hall i (by omega) h2
      · rename_i hne
        obtain rfl := Option.some.inj h
        exact ⟨Nat.le_refl _, hne, fun i h1 h2 => by omega⟩

/-- Leaving empty slots behind restores the invariant when all slots of better
priority are empty. -/
theorem SlotsWF.leaveEmpty {self : Priolist} {c : Nat} (h : self.SlotsWF) (hc : 1 ≤ c)
    (hbefore : ∀ i, i < c - 1 → (self.slots i).pipes = []) : (self.leaveEmpty c).WF := by
  refine { h with currentNone := ?_, currentSome := ?_ }
  · intro hnone i
    by_cases hi : i < c - 1
    · exact hbefore i hi
    · by_cases hlt : i < priolistSlots
      · exact skipEmpty_none hc hnone i (by omega) (by omega)
      · refine List.eq_nil_iff_forall_not_mem.mpr ?_
        intro d hd
        exact hlt (h.range i d hd).2
  · intro c' hsome
    obtain ⟨hle, hne, hall⟩ := skipEmpty_some hc hsome
    refine ⟨by omega, hne, ?_⟩
    intro i hi
    by_cases hi' : i < c - 1
    · exact hbefore i hi'
    · exact hall i (by omega) hi

theorem SlotsWF.setSlot {self : Priolist} {c : Nat} {s : PriolistSlot} (h : self.SlotsWF)
    (hrange : ∀ d ∈ s.pipes, d.priority = c - 1 + 1 ∧ c - 1 < priolistSlots)
    (hnodup : s.pipes.Nodup) (hnone : s.current = none → s.pipes = [])
    (hsome : ∀ d, s.current = some d → d ∈ s.pipes) : (self.setSlot c s).SlotsWF := by
  constructor
  · intro i d hd
    rw [slots_setSlot] at hd
    split at hd
    · rename_i hi
      rw [hi]
      exact hrange d hd
    · exact h.range i d hd
  · intro i
    rw [slots_setSlot]
    split
    · exact hnodup
    · exact h.nodup i
  · intro i hi
    rw [slots_setSlot] at hi ⊢
    split at hi
    · rename_i hc
      rw [if_pos hc]
      exact hnone hi
    · rename_i hc
      rw [if_neg hc]
      exact h.slotNone i hi
  · intro i d hi
    rw [slots_setSlot] at hi ⊢
    split at hi
    · rename_i hc
      rw [if_pos hc]
      exact hsome d hi
    · rename_i hc
      rw [if_neg hc]
      exact h.slotSome i d hi

/-- A slot in use that keeps some pipe, or is not the current one, may be replaced
without a look at the current priority. -/
theorem WF.setSlot {self : Priolist} {c : Nat} {s : PriolistSlot} (h : self.WF) (hc : 1 ≤ c)
    (hused : (self.slot c).pipes ≠ [])
    (hrange : ∀ d ∈ s.pipes, d.priority = c - 1 + 1 ∧ c - 1 < priolistSlots)
    (hnodup : s.pipes.Nodup) (hnone : s.current = none → s.pipes = [])
    (hsome : ∀ d, s.current = some d → d ∈ s.pipes)
    (hcur : self.current = some c → s.pipes ≠ []) : (self.setSlot c s).WF := by
  refine { h.toSlotsWF.setSlot hrange hnodup hnone hsome with
    currentNone := ?_, currentSome := ?_ }
  · intro hn
    exact absurd (h.currentNone hn (c - 1)) hused
  · intro c' hc'
    obtain ⟨h1, hne, hbefore⟩ := h.currentSome c' hc'
    refine ⟨h1, ?_, ?_⟩
    · rw [slot, slots_setSlot]
      split
      · rename_i heq
        have : c' = c := by omega
        exact hcur (this ▸ hc')
      · exact hne
    · intro i hi
      rw [slots_setSlot]
      split
      · rename_i hic
        rw [hic] at hi
        exact absurd (hbefore (c - 1) hi) hused
      · exact hbefore i hi

/-! ## The item behind another -/

theorem nextItem_mem {x y : PriolistData} {l : List PriolistData} (hnd : l.Nodup)
    (h : nextItem x l = some y) : y ∈ l ∧ y ≠ x := by
  induction l with
  | nil => simp [nextItem] at h
  | cons z l ih =>
      rw [nextItem] at h
      have hnd' := List.nodup_cons.mp hnd
      split at h
      · rename_i hz
        have hy : y ∈ l := List.mem_of_mem_head? h
        refine ⟨List.mem_cons_of_mem z hy, ?_⟩
        rintro rfl
        exact hnd'.1 (hz ▸ hy)
      · obtain ⟨hy, hne⟩ := ih hnd'.2 h
        exact ⟨List.mem_cons_of_mem z hy, hne⟩

/-- The new current pipe of a slot is one of those that stay. -/
theorem next_or_head {x : PriolistData} {l l' : List PriolistData} (hnd : l.Nodup)
    (hl' : ∀ y, y ∈ l → y ≠ x → y ∈ l') :
    ((nextItem x l).or l'.head? = none → l' = []) ∧
      ∀ d, (nextItem x l).or l'.head? = some d → d ∈ l' := by
  cases hn : nextItem x l with
  | none =>
      simp only [Option.none_or]
      exact ⟨fun h => by simpa using h, fun d hd => List.mem_of_mem_head? hd⟩
  | some y =>
      obtain ⟨hy, hne⟩ := nextItem_mem hnd hn
      simp only [Option.some_or, reduceCtorEq, false_implies, Option.some.injEq, true_and]
      rintro d rfl
      exact hl' y hy hne

/-! ## The active pipes after one slot was replaced -/

/-- The slot of `c` lost the pipe `d`, all others are as before. -/
theorem active_erase {self self' : Priolist} {d : PriolistData} (h : self.WF)
    (hact : self.Active d)
    (hslots : ∀ i, (self'.slots i).pipes =
      if i = d.priority - 1 then (self.slot d.priority).pipes.erase d
      else (self.slots i).pipes) (e : PriolistData) :
    self'.Active e ↔ self.Active e ∧ e ≠ d := by
  rw [Active, slot, hslots, Active, slot]
  split
  · rename_i hc
    rw [slot, ← hc, List.Nodup.mem_erase_iff (h.nodup _)]
    exact and_comm
  · rename_i hc
    refine ⟨fun he => ⟨he, ?_⟩, fun he => he.1⟩
    rintro rfl
    exact hc rfl

/-- The slot of `c` got the pipe `d`, all others are as before. -/
theorem active_insert {self self' : Priolist} {d : PriolistData}
    (hslots : ∀ i, (self'.slots i).pipes =
      if i = d.priority - 1 then (self.slot d.priority).pipes ++ [d]
      else (self.slots i).pipes) (e : PriolistData) :
    self'.Active e ↔ e = d ∨ self.Active e := by
  rw [Active, slot, hslots, Active, slot]
  split
  · rename_i hc
    rw [slot, ← hc, List.mem_append, List.mem_singleton]
    exact or_comm
  · rename_i hc
    refine ⟨Or.inr, fun he => he.resolve_left ?_⟩
    rintro rfl
    exact hc rfl

theorem setSlot_pipes (self : Priolist) (c i : Nat) (s : PriolistSlot) :
    ((self.setSlot c s).slots i).pipes =
      if i = c - 1 then s.pipes else (self.slots i).pipes := by
  rw [slots_setSlot]
  split <;> rfl

/-! ## The operations -/

/-- Removing a pipe takes it from the active pipes, if it is one of them. -/
theorem rm_spec {self : Priolist} (h : self.WF) (d : PriolistData) :
    (self.rm d).WF ∧ ∀ e, (self.rm d).Active e ↔ self.Active e ∧ e ≠ d := by
  by_cases hact : self.Active d
  · have hmem : d ∈ (self.slot d.priority).pipes := hact
    obtain ⟨hprio, hlt⟩ := h.range _ d hmem
    have hnd : (self.slot d.priority).pipes.Nodup := h.nodup _
    have hused : (self.slot d.priority).pipes ≠ [] := List.ne_nil_of_mem hmem
    have hkeep : ∀ y, y ∈ (self.slot d.priority).pipes → y ≠ d →
        y ∈ (self.slot d.priority).pipes.erase d :=
      fun y hy hne => (List.mem_erase_of_ne hne).mpr hy
    have hrange : ∀ y ∈ (self.slot d.priority).pipes.erase d,
        y.priority = d.priority - 1 + 1 ∧ d.priority - 1 < priolistSlots :=
      fun y hy => h.range _ y (List.mem_of_mem_erase hy)
    unfold rm
    rw [if_pos hact]
    simp only
    by_cases hcur : (self.slot d.priority).current ≠ some d
    · -- another pipe is the slot's current one and stays
      rw [if_pos hcur]
      have hother : ∀ e, (self.slot d.priority).current = some e → e ≠ d := by
        rintro e he rfl
        exact hcur he
      obtain ⟨e, he⟩ := Option.ne_none_iff_exists'.mp fun hn => hused (h.slotNone _ hn)
      refine ⟨h.setSlot (by omega) hused hrange (hnd.erase d)
        (fun hn => absurd (hn.symm.trans he) (by simp))
        (fun e he => hkeep e (h.slotSome _ e he) (hother e he))
        (fun _ => List.ne_nil_of_mem (hkeep e (h.slotSome _ e he) (hother e he))), ?_⟩
      exact active_erase h hact (setSlot_pipes _ _ · _)
    · rw [if_neg hcur]
      obtain ⟨hnone, hsome⟩ := next_or_head (x := d) hnd hkeep
      by_cases hslot : self.current ≠ some d.priority
      · rw [if_pos hslot]
        refine ⟨h.setSlot (by omega) hused hrange (hnd.erase d) hnone hsome
          (fun hc => absurd hc hslot), ?_⟩
        exact active_erase h hact (setSlot_pipes _ _ · _)
      · -- the current slot may have become empty
        rw [if_neg hslot]
        have hcurrent : self.current = some d.priority := not_not.mp hslot
        refine ⟨(h.toSlotsWF.setSlot hrange (hnd.erase d) hnone hsome).leaveEmpty (by omega) ?_,
          ?_⟩
        · intro i hi
          rw [slots_setSlot, if_neg (by omega)]
          exact (h.currentSome _ hcurrent).2.2 i hi
        · exact active_erase h hact (setSlot_pipes _ _ · _)
  · unfold rm
    rw [if_neg hact]
    refine ⟨h, ?_⟩
    intro e
    refine ⟨fun he => ⟨he, ?_⟩, fun he => he.1⟩
    rintro rfl
    exact hact he

/-- Activating a pipe that is not active adds it to the active pipes. -/
theorem activate_spec {self : Priolist} (h : self.WF) {d : PriolistData}
    (hnew : ¬ self.Active d) (hprio : 1 ≤ d.priority) (hlt : d.priority ≤ priolistSlots) :
    ∃ self', self.activate d = .ok self' ∧ self'.WF ∧
      ∀ e, self'.Active e ↔ e = d ∨ self.Active e := by
  have hnd : (self.slot d.priority).pipes.Nodup := h.nodup _
  unfold activate
  rw [gridAssert_pos hnew, ok_bind]
  simp only
  by_cases hused : (self.slot d.priority).pipes ≠ []
  · rw [if_pos hused]
    have hrange : ∀ y ∈ (self.slot d.priority).pipes ++ [d],
        y.priority = d.priority - 1 + 1 ∧ d.priority - 1 < priolistSlots := by
      intro y hy
      rcases List.mem_append.mp hy with hy | hy
      · exact h.range _ y hy
      · obtain rfl := List.mem_singleton.mp hy
        exact ⟨by omega, by omega⟩
    have hnodup : ((self.slot d.priority).pipes ++ [d]).Nodup := by
      rw [List.nodup_append]
      refine ⟨hnd, List.nodup_singleton d, ?_⟩
      intro a ha b hb hab
      obtain rfl := List.mem_singleton.mp hb
      exact hnew (hab ▸ ha)
    refine ⟨_, rfl, h.setSlot (by omega) hused hrange hnodup
      (fun hn => absurd (h.slotNone _ hn) hused)
      (fun e he => List.mem_append_left _ (h.slotSome _ e he)) (fun _ => by simp), ?_⟩
    exact active_insert (setSlot_pipes _ _ · _)
  · rw [if_neg hused]
    have hempty : (self.slot d.priority).pipes = [] := not_not.mp hused
    have hslots : (self.setSlot d.priority { pipes := [d], current := some d }).SlotsWF := by
      refine h.toSlotsWF.setSlot ?_ (List.nodup_singleton d) (by simp) (by simp)
      intro y hy
      obtain rfl := List.mem_singleton.mp hy
      exact ⟨by omega, by omega⟩
    have hpipes : ∀ i, ((self.setSlot d.priority { pipes := [d], current := some d }).slots
        i).pipes = if i = d.priority - 1 then (self.slot d.priority).pipes ++ [d]
          else (self.slots i).pipes := by
      intro i
      rw [setSlot_pipes, hempty, List.nil_append]
    have hbetter : ∀ c, d.priority ≤ c → (∀ i, i < c - 1 → (self.slots i).pipes = []) →
        ({ self.setSlot d.priority { pipes := [d], current := some d } with
          current := some d.priority }).WF := by
      intro c hle hbefore
      refine { hslots with currentNone := by simp, currentSome := ?_ }
      intro c' hc'
      obtain rfl := Option.some.inj hc'
      refine ⟨hprio, ?_, ?_⟩
      · simp [slot, slots_setSlot]
      · intro i hi
        change ((self.setSlot _ _).slots i).pipes = []
        rw [setSlot_pipes, if_neg (by omega)]
        exact hbefore i (by omega)
    cases hc : self.current with
    | none =>
        exact ⟨_, rfl, hbetter d.priority (Nat.le_refl _) fun i _ => h.currentNone hc i,
          active_insert hpipes⟩
    | some c =>
        obtain ⟨h1, hne, hbefore⟩ := h.currentSome c hc
        by_cases hgt : c > d.priority
        · refine ⟨_, rfl, ?_, ?_⟩
          · rw [if_pos hgt]
            exact hbetter c (by omega) hbefore
          · rw [if_pos hgt]
            exact active_insert hpipes
        · refine ⟨_, rfl, ?_, ?_⟩
          · rw [if_neg hgt]
            refine { hslots with currentNone := ?_, currentSome := ?_ }
            · intro hn
              rw [setSlot_current, hc] at hn
              exact absurd hn (by simp)
            · intro c' hc'
              obtain rfl : c = c' := by
                rw [setSlot_current, hc] at hc'
                exact Option.some.inj hc'
              have hcd : c ≠ d.priority := by
                rintro rfl
                exact hne hempty
              refine ⟨h1, ?_, ?_⟩
              · rw [slot, setSlot_pipes, if_neg (by omega)]
                exact hne
              · intro i hi
                rw [setSlot_pipes, if_neg (by omega)]
                exact hbefore i hi
          · rw [if_neg hgt]
            exact active_insert hpipes

/-- The pipe to be used next is an active one; there is none only when no pipe is
active. -/
theorem getpipe_spec {self : Priolist} (h : self.WF) :
    (self.getpipe = .ok none ∧ self.isActive = false ∧ ∀ d, ¬ self.Active d) ∨
      ∃ c d, self.current = some c ∧ (self.slot c).current = some d ∧
        self.getpipe = .ok (some d) ∧ self.isActive = true ∧ self.Active d := by
  cases hc : self.current with
  | none =>
      refine Or.inl ⟨by simp [getpipe, hc], by simp [isActive, hc], ?_⟩
      intro d hd
      have hact : self.isActive = true := h.isActive_iff.mpr ⟨d, hd⟩
      simp [isActive, hc] at hact
  | some c =>
      obtain ⟨-, hne, -⟩ := h.currentSome c hc
      obtain ⟨d, hd⟩ := Option.ne_none_iff_exists'.mp fun hn => hne (h.slotNone _ hn)
      have hd' : (self.slot c).current = some d := hd
      refine Or.inr ⟨c, d, rfl, hd', by simp [getpipe, hc, hd'], by simp [isActive, hc], ?_⟩
      exact h.active_iff.mpr ⟨c - 1, h.slotSome _ d hd⟩

/-- Moving on takes the used pipe from the active ones when it is released. -/
theorem advance_spec {self : Priolist} (h : self.WF) {d : PriolistData} (release : Bool)
    (hget : self.getpipe = .ok (some d)) :
    ∃ self', self.advance release = .ok self' ∧ self'.WF ∧
      ∀ e, self'.Active e ↔ self.Active e ∧ (release = true → e ≠ d) := by
  rcases getpipe_spec h with ⟨hnone, -, -⟩ | ⟨c, d', hc, hd, hsome, -, hact⟩
  · rw [hnone] at hget
    exact absurd hget (by simp)
  · obtain rfl : d' = d := by
      rw [hsome] at hget
      simpa using hget
    obtain ⟨h1, hne, hbefore⟩ := h.currentSome c hc
    have hmem : d' ∈ (self.slots (c - 1)).pipes := h.slotSome _ _ hd
    obtain ⟨hprio, hlt⟩ := h.range _ d' hmem
    have hcd : c = d'.priority := by omega
    subst hcd
    have hnd : (self.slot d'.priority).pipes.Nodup := h.nodup _
    have hkeep : ∀ y, y ∈ (self.slot d'.priority).pipes → y ≠ d' →
        y ∈ (if release then (self.slot d'.priority).pipes.erase d'
          else (self.slot d'.priority).pipes) := by
      intro y hy hyd
      split
      · exact (List.mem_erase_of_ne hyd).mpr hy
      · exact hy
    obtain ⟨hnone, hsome⟩ := next_or_head (x := d') hnd hkeep
    have hcall : self.advance release = .ok ((self.setSlot d'.priority
        { pipes := if release then (self.slot d'.priority).pipes.erase d'
            else (self.slot d'.priority).pipes,
          current := (nextItem d' (self.slot d'.priority).pipes).or
            (if release then (self.slot d'.priority).pipes.erase d'
              else (self.slot d'.priority).pipes).head? }).leaveEmpty d'.priority) := by
      simp only [advance, hc, hd]
    refine ⟨_, hcall, ?_, ?_⟩
    · refine (h.toSlotsWF.setSlot ?_ ?_ hnone hsome).leaveEmpty h1 ?_
      · intro y hy
        refine h.range _ y ?_
        split at hy
        · exact List.mem_of_mem_erase hy
        · exact hy
      · split
        · exact hnd.erase d'
        · exact hnd
      · intro i hi
        rw [slots_setSlot, if_neg (by omega)]
        exact hbefore i hi
    · cases release with
      | true =>
          intro e
          rw [active_erase h hact (setSlot_pipes _ _ · _)]
          simp
      | false =>
          intro e
          have hsame : ∀ i, ((self.setSlot d'.priority
              { pipes := (self.slot d'.priority).pipes,
                current := (nextItem d' (self.slot d'.priority).pipes).or
                  (self.slot d'.priority).pipes.head? }).slots i).pipes =
                (self.slots i).pipes := by
            intro i
            rw [setSlot_pipes]
            split
            · rename_i hi
              rw [hi]
              rfl
            · rfl
          have hactive : ((self.setSlot d'.priority
              { pipes := (self.slot d'.priority).pipes,
                current := (nextItem d' (self.slot d'.priority).pipes).or
                  (self.slot d'.priority).pipes.head? }).leaveEmpty d'.priority).Active e ↔
                self.Active e := by
            change e ∈ ((self.setSlot _ _).slots _).pipes ↔ _
            rw [hsame]
            rfl
          simpa using hactive

end Priolist

end GridMq.Protocols
