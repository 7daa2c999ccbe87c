import GridMq.Library.RoundRobin
import GridMq.Library.Transition
import GridMq.Core.Pipe
import GridMq.Protocols.Priolist

set_option autoImplicit false

/-!
# A priority list in use (`src/protocols/utils/priolist.c`, `lb.c`, `fq.c`)

The load balancer and the fair queue add pipes to their list, activate them when they
are ready, take the next one to send or receive and remove them in the end.  In every
order of these calls the list keeps its invariant (`Tidy`), the best priority is served
first, and the pipes of one priority are served in turn.
-/

namespace GridMq.Protocols

open GridMq.Core GridMq.Library

/-- `grid_lb_send` and `grid_fq_recv`, which differ in the call on the pipe: the pipe that
was used, or none with `-EAGAIN`.  `release` is `GRID_PIPE_RELEASE` in what the pipe
returned. -/
def Priolist.serve (self : Priolist) (release : Bool) :
    Except Abort (Priolist × Option PriolistData) := do
  match ← self.getpipe with
  | none => return (self, none)
  | some pipe =>
      let self ← self.advance release
      return (self, some pipe)

/-- `grid_lb_send`. -/
def lbSend (self : Priolist) (release : Bool) : Except Abort (Priolist × Option PriolistData) :=
  self.serve release

/-- `grid_fq_recv`. -/
def fqRecv (self : Priolist) (release : Bool) : Except Abort (Priolist × Option PriolistData) :=
  self.serve release

/-- A priority list, the priorities of the pipes that were added, and which of them are
active. -/
structure ListUse where
  list : Priolist := .init
  priority : Nat → Option Nat := fun _ => none
  active : Nat → Bool := fun _ => false

namespace ListUse

/-- The item of a pipe that was added. -/
def getItem (self : ListUse) (p : Nat) : Except Abort PriolistData :=
  match self.priority p with
  | none => .error .nullPointer
  | some priority => .ok ⟨p, priority⟩

def setPriority (self : ListUse) (p : Nat) (priority : Option Nat) : ListUse :=
  { self with priority := fun q => if q = p then priority else self.priority q }

def setActive (self : ListUse) (p : Nat) (active : Bool) : ListUse :=
  { self with active := fun q => if q = p then active else self.active q }

/-- The calls. -/
inductive Label where
  /-- `grid_priolist_add` -/
  | add (p : Nat) (priority : Priority)
  /-- `grid_priolist_rm` -/
  | rm (p : Nat)
  /-- `grid_priolist_activate` -/
  | activate (p : Nat)
  /-- `grid_priolist_advance` -/
  | advance (release : Bool)
  /-- `grid_lb_send` -/
  | lbSend (release : Bool)
  /-- `grid_fq_recv` -/
  | fqRecv (release : Bool)

/-- How the list is called: a pipe is added once before it is removed, activated when it is
not active, and there is a pipe when the list is advanced. -/
def Enabled (s : ListUse) : Label → Prop
  | .add p _ => s.priority p = none
  | .rm p => (s.priority p).isSome
  | .activate p => (s.priority p).isSome ∧ s.active p = false
  | .advance _ => s.list.isActive = true
  | .lbSend _ => True
  | .fqRecv _ => True

instance (s : ListUse) (l : Label) : Decidable (s.Enabled l) := by
  cases l <;> unfold Enabled <;> infer_instance

/-- What is known of a pipe after it was used. -/
def used (self : ListUse) (list : Priolist) (pipe : Option PriolistData) (release : Bool) :
    ListUse :=
  let self := { self with list := list }
  match pipe with
  | none => self
  | some d => if release then self.setActive d.pipe false else self

/-- One call, or the assertion that fails. -/
def next (s : ListUse) : Label → Except Abort ListUse
  | .add p priority => .ok (s.setPriority p (some priority.1))
  | .rm p => do
      let d ← s.getItem p
      return ({ s with list := s.list.rm d }.setPriority p none).setActive p false
  | .activate p => do
      let d ← s.getItem p
      let list ← s.list.activate d
      return { s with list := list }.setActive p true
  | .advance release => do
      let pipe ← s.list.getpipe
      let list ← s.list.advance release
      return s.used list pipe release
  | .lbSend release => do
      let r ← Protocols.lbSend s.list release
      return s.used r.1 r.2 release
  | .fqRecv release => do
      let r ← Protocols.fqRecv s.list release
      return s.used r.1 r.2 release

/-- A list from its initialisation on. -/
def system : System ListUse Label where
  init s := s = {}
  step s l s' := s.Enabled l ∧ s.next l = .ok s'

/-- The pipe that a call uses. -/
def served (s : ListUse) : Label → Option PriolistData
  | .add _ _ => none
  | .rm _ => none
  | .activate _ => none
  | .advance _ => s.list.getpipe.toOption.join
  | .lbSend _ => s.list.getpipe.toOption.join
  | .fqRecv _ => s.list.getpipe.toOption.join

/-! ## The invariant -/

/-- The invariant. -/
structure Inv (s : ListUse) : Prop where
  wf : s.list.WF
  listed : ∀ d, s.list.Active d ↔ s.active d.pipe = true ∧ s.priority d.pipe = some d.priority
  added : ∀ p, s.active p = true → (s.priority p).isSome
  range : ∀ p priority, s.priority p = some priority → 1 ≤ priority ∧ priority ≤ priolistSlots

theorem inv_init : Inv {} where
  wf := Priolist.wf_init
  listed d := by simp
  added p h := absurd h (by simp)
  range p priority h := absurd h (by simp)

variable {s s' : ListUse} {l : Label}

theorem item_eq {d e : PriolistData} (hpipe : d.pipe = e.pipe)
    (hprio : some d.priority = some e.priority) : d = e := by
  obtain ⟨p, q⟩ := d
  obtain ⟨p', q'⟩ := e
  obtain rfl : p = p' := hpipe
  obtain rfl : q = q' := Option.some.inj hprio
  rfl

theorem getItem_some {p priority : Nat} (h : s.priority p = some priority) :
    s.getItem p = .ok ⟨p, priority⟩ := by
  simp [getItem, h]

/-- What the list makes of a call that uses a pipe. -/
theorem serve_spec {self : Priolist} (h : self.WF) (release : Bool) :
    (self.serve release = .ok (self, none) ∧ ∀ d, ¬self.Active d) ∨
      ∃ d self', self.getpipe = .ok (some d) ∧ self.advance release = .ok self' ∧
        self.serve release = .ok (self', some d) ∧ self.Active d ∧ self'.WF ∧
        ∀ e, self'.Active e ↔ self.Active e ∧ (release = true → e ≠ d) := by
  rcases Priolist.getpipe_spec h with ⟨hget, -, hnone⟩ | ⟨c, d, -, -, hget, -, hact⟩
  · exact Or.inl ⟨by rw [Priolist.serve, hget]; rfl, hnone⟩
  · obtain ⟨self', hadvance, hwf, hactive⟩ := Priolist.advance_spec h release hget
    refine Or.inr ⟨d, self', hget, hadvance, ?_, hact, hwf, hactive⟩
    rw [Priolist.serve, hget, ok_bind]
    simp only [hadvance, ok_bind, pure_eq_ok]

/-- The pipe that was used is no longer active if it was released. -/
theorem Inv.used (h : Inv s) {d : PriolistData} {list : Priolist} {release : Bool}
    (hact : s.list.Active d) (hwf : list.WF)
    (hactive : ∀ e, list.Active e ↔ s.list.Active e ∧ (release = true → e ≠ d)) :
    Inv (s.used list (some d) release) := by
  cases release with
  | false =>
      refine ⟨hwf, ?_, h.added, h.range⟩
      intro e
      change list.Active e ↔ _
      rw [hactive, h.listed]
      simp [ListUse.used]
  | true =>
      obtain ⟨-, hprio⟩ := (h.listed d).mp hact
      refine ⟨hwf, ?_, ?_, h.range⟩
      · intro e
        change list.Active e ↔ (if e.pipe = d.pipe then false else s.active e.pipe) = true ∧
          s.priority e.pipe = some e.priority
        rw [hactive, h.listed]
        by_cases hpipe : e.pipe = d.pipe
        · rw [if_pos hpipe, hpipe, hprio]
          constructor
          · rintro ⟨⟨-, hsame⟩, hne⟩
            exact absurd (item_eq hpipe hsame.symm) (hne rfl)
          · rintro ⟨hno, -⟩
            exact absurd hno (by simp)
        · rw [if_neg hpipe]
          refine and_iff_left ?_
          rintro - rfl
          exact hpipe rfl
      · intro p hp
        refine h.added p ?_
        change (if p = d.pipe then false else s.active p) = true at hp
        split at hp
        · exact absurd hp (by simp)
        · exact hp

/-- No call fails an assertion, and each keeps the invariant. -/
theorem next_spec (h : Inv s) (hen : s.Enabled l) : ∃ s', s.next l = .ok s' ∧ Inv s' := by
  cases l with
  | add p priority =>
      have hnone : s.priority p = none := hen
      refine ⟨_, rfl, h.wf, ?_, ?_, ?_⟩
      · intro d
        change s.list.Active d ↔ s.active d.pipe = true ∧
          (if d.pipe = p then some priority.1 else s.priority d.pipe) = some d.priority
        rw [h.listed]
        by_cases hp : d.pipe = p
        · have hinactive : s.active p = false := by
            by_contra hact
            rw [Bool.not_eq_false] at hact
            have := h.added p hact
            simp [hnone] at this
          simp [hp, hinactive]
        · rw [if_neg hp]
      · intro q hq
        change (if q = p then some priority.1 else s.priority q).isSome = true
        split
        · rfl
        · exact h.added q hq
      · intro q priority' hq
        change (if q = p then some priority.1 else s.priority q) = some priority' at hq
        split at hq
        · obtain rfl := Option.some.inj hq
          exact priority.2
        · exact h.range q priority' hq
  | rm p =>
      obtain ⟨priority, hprio⟩ := Option.isSome_iff_exists.mp hen
      obtain ⟨hwf, hactive⟩ := Priolist.rm_spec h.wf ⟨p, priority⟩
      refine ⟨_, by rw [next, getItem_some hprio]; rfl, hwf, ?_, ?_, ?_⟩
      · intro d
        change (s.list.rm _).Active d ↔ (if d.pipe = p then false else s.active d.pipe) = true ∧
          (if d.pipe = p then none else s.priority d.pipe) = some d.priority
        rw [hactive, h.listed]
        by_cases hp : d.pipe = p
        · rw [if_pos hp, hp, hprio]
          constructor
          · rintro ⟨⟨-, hsame⟩, hne⟩
            exact absurd (item_eq hp hsame.symm) hne
          · rintro ⟨hno, -⟩
            exact absurd hno (by simp)
        · rw [if_neg hp, if_neg hp]
          refine and_iff_left ?_
          rintro rfl
          exact hp rfl
      · intro q hq
        change (if q = p then false else s.active q) = true at hq
        change (if q = p then none else s.priority q).isSome = true
        split at hq
        · exact absurd hq (by simp)
        · rename_i hqp
          rw [if_neg hqp]
          exact h.added q hq
      · intro q priority' hq
        change (if q = p then none else s.priority q) = some priority' at hq
        split at hq
        · exact absurd hq (by simp)
        · exact h.range q priority' hq
  | activate p =>
      obtain ⟨hsome, hinactive⟩ := hen
      obtain ⟨priority, hprio⟩ := Option.isSome_iff_exists.mp hsome
      have hnew : ¬s.list.Active ⟨p, priority⟩ := by
        intro hact
        have := ((h.listed _).mp hact).1
        rw [hinactive] at this
        exact absurd this (by simp)
      obtain ⟨hlo, hhi⟩ := h.range p priority hprio
      obtain ⟨list, hcall, hwf, hactive⟩ := Priolist.activate_spec h.wf hnew hlo hhi
      refine ⟨{ s with list := list }.setActive p true, ?_, hwf, ?_, ?_, h.range⟩
      · rw [next, getItem_some hprio, ok_bind, hcall]
        rfl
      · intro d
        change list.Active d ↔ (if d.pipe = p then true else s.active d.pipe) = true ∧
          s.priority d.pipe = some d.priority
        rw [hactive, h.listed]
        by_cases hp : d.pipe = p
        · rw [if_pos hp, hp, hinactive, hprio]
          constructor
          · rintro (rfl | ⟨hno, -⟩)
            · exact ⟨rfl, rfl⟩
            · exact absurd hno (by simp)
          · rintro ⟨-, hsame⟩
            exact Or.inl (item_eq hp hsame.symm)
        · rw [if_neg hp]
          refine or_iff_right ?_
          rintro rfl
          exact hp rfl
      · intro q hq
        change (if q = p then true else s.active q) = true at hq
        split at hq
        · rename_i hqp
          rw [hqp]
          exact hsome
        · exact h.added q hq
  | advance release =>
      rcases serve_spec h.wf release with ⟨-, hnone⟩ | ⟨d, list, hget, hcall, -, hact, hwf, hactive⟩
      · obtain ⟨d, hd⟩ := h.wf.isActive_iff.mp hen
        exact absurd hd (hnone d)
      · refine ⟨_, ?_, h.used hact hwf hactive⟩
        rw [next, hget, ok_bind, hcall]
        rfl
  | lbSend release =>
      rcases serve_spec h.wf release with ⟨hcall, -⟩ | ⟨d, list, -, -, hcall, hact, hwf, hactive⟩
      · exact ⟨s, by rw [next, Protocols.lbSend, hcall]; rfl, h⟩
      · exact ⟨_, by rw [next, Protocols.lbSend, hcall]; rfl, h.used hact hwf hactive⟩
  | fqRecv release =>
      rcases serve_spec h.wf release with ⟨hcall, -⟩ | ⟨d, list, -, -, hcall, hact, hwf, hactive⟩
      · exact ⟨s, by rw [next, Protocols.fqRecv, hcall]; rfl, h⟩
      · exact ⟨_, by rw [next, Protocols.fqRecv, hcall]; rfl, h.used hact hwf hactive⟩

theorem inv_reachable (h : system.Reachable s) : Inv s := by
  apply h.invariant
  · rintro s rfl
    exact inv_init
  · rintro s l s' - hinv ⟨hen, hnext⟩
    obtain ⟨s₁, hnext₁, hinv₁⟩ := next_spec hinv hen
    obtain rfl := Except.ok.inj (hnext.symm.trans hnext₁)
    exact hinv₁

/-! ## The list in every state -/

/-- What the list says in a state: the current priority is the smallest one in use, or
there is none; the current pipe of a slot in use is in its list; an active pipe is in the
slot of its priority, once, and in no other; a pipe that is not active is in none. -/
structure Tidy (s : ListUse) : Prop where
  current : ∀ c, s.list.current = some c ↔ 1 ≤ c ∧ (s.list.slots (c - 1)).pipes ≠ [] ∧
    ∀ i, i < c - 1 → (s.list.slots i).pipes = []
  currentNone : s.list.current = none ↔ ∀ i, (s.list.slots i).pipes = []
  slotCurrent : ∀ i, (s.list.slots i).pipes ≠ [] →
    ∃ d ∈ (s.list.slots i).pipes, (s.list.slots i).current = some d
  active : ∀ p, s.active p = true → ∃ priority, s.priority p = some priority ∧ 1 ≤ priority ∧
    ∀ i, (s.list.slots i).pipes.countP (fun d => d.pipe == p) = if i = priority - 1 then 1 else 0
  inactive : ∀ p, s.active p = false → ∀ i, ∀ d ∈ (s.list.slots i).pipes, d.pipe ≠ p

/-- A pipe is in the slots as its item. -/
theorem Inv.mem_slot (h : Inv s) {i : Nat} {d : PriolistData} (hd : d ∈ (s.list.slots i).pipes) :
    s.active d.pipe = true ∧ s.priority d.pipe = some d.priority ∧ d.priority = i + 1 := by
  obtain ⟨hact, hprio⟩ := (h.listed d).mp (h.wf.active_iff.mpr ⟨i, hd⟩)
  exact ⟨hact, hprio, (h.wf.range i d hd).1⟩

/-- The pipe occurs as often as its item does. -/
theorem Inv.countP_slot (h : Inv s) {p priority : Nat} (hprio : s.priority p = some priority)
    (i : Nat) : (s.list.slots i).pipes.countP (fun d => d.pipe == p) =
      (s.list.slots i).pipes.count ⟨p, priority⟩ := by
  refine List.countP_congr ?_
  intro d hd
  obtain ⟨-, hd', -⟩ := h.mem_slot hd
  simp only [beq_iff_eq]
  constructor
  · rintro rfl
    exact item_eq rfl (hd'.symm.trans hprio)
  · rintro rfl
    rfl

theorem Inv.isTidy (h : Inv s) : s.Tidy where
  current c := by
    constructor
    · exact h.wf.currentSome c
    · rintro ⟨h1, hne, hbefore⟩
      cases hc : s.list.current with
      | none => exact absurd (h.wf.currentNone hc (c - 1)) hne
      | some c' =>
          obtain ⟨h1', hne', hbefore'⟩ := h.wf.currentSome c' hc
          rw [Priolist.slot] at hne'
          have hle : ¬c - 1 < c' - 1 := fun hlt => hne (hbefore' _ hlt)
          have hge : ¬c' - 1 < c - 1 := fun hlt => hne' (hbefore _ hlt)
          exact congrArg some (by omega)
  currentNone := by
    constructor
    · exact h.wf.currentNone
    · intro hempty
      cases hc : s.list.current with
      | none => rfl
      | some c => exact absurd (hempty (c - 1)) (h.wf.currentSome c hc).2.1
  slotCurrent i hne := by
    obtain ⟨d, hd⟩ := Option.ne_none_iff_exists'.mp fun hn => hne (h.wf.slotNone i hn)
    exact ⟨d, h.wf.slotSome i d hd, hd⟩
  active p hp := by
    obtain ⟨priority, hprio⟩ := Option.isSome_iff_exists.mp (h.added p hp)
    refine ⟨priority, hprio, (h.range p priority hprio).1, ?_⟩
    intro i
    rw [h.countP_slot hprio]
    have hmem : (⟨p, priority⟩ : PriolistData) ∈ (s.list.slots (priority - 1)).pipes :=
      (h.listed ⟨p, priority⟩).mpr ⟨hp, hprio⟩
    split
    · rename_i hi
      rw [hi]
      exact List.count_eq_one_of_mem (h.wf.nodup _) hmem
    · rename_i hi
      refine List.count_eq_zero.mpr ?_
      intro hin
      have hrange := (h.wf.range i _ hin).1
      exact hi (by simp only at hrange; omega)
  inactive p hp i d hd := by
    rintro rfl
    have := (h.mem_slot hd).1
    rw [hp] at this
    exact absurd this (by simp)

/-- In every state of every run the list is tidy, and no call that is made as the callers do
fails an assertion or follows a missing pointer. -/
theorem always_tidy (h : system.Reachable s) :
    s.Tidy ∧ ∀ l, s.Enabled l → ∃ s', s.next l = .ok s' := by
  have hinv := inv_reachable h
  refine ⟨hinv.isTidy, ?_⟩
  intro l hen
  obtain ⟨s', hnext, -⟩ := next_spec hinv hen
  exact ⟨s', hnext⟩

/-- A call that is made as the callers do and does not abort. -/
def tryNext (s : ListUse) (l : Label) : Option ListUse :=
  System.tryStep (s.Enabled l) (s.next l)

theorem tidy_two_pipes : ∃ s, system.Reachable s ∧ s.Tidy ∧ s.active 0 = true ∧
    s.active 1 = false := by
  have hrun : (System.follow tryNext {} [.add 0 ⟨8, by decide⟩, .add 1 ⟨4, by decide⟩,
      .activate 0, .activate 1, .lbSend true]).any
        (fun s => s.active 0 && !s.active 1) = true := by
    decide +kernel
  obtain ⟨s, hfollow, hact⟩ := (Option.any_eq_true _ _).mp hrun
  have hreach := (System.Reachable.start (S := system) rfl).follow
    (fun _ _ _ => System.tryStep_eq_some) hfollow
  simp only [Bool.and_eq_true, Bool.not_eq_eq_eq_not, Bool.not_true] at hact
  exact ⟨s, hreach, (always_tidy hreach).1, hact.1, hact.2⟩

end ListUse

end GridMq.Protocols
