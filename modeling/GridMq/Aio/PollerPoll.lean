import GridMq.Utils.List
import GridMq.Library.Transition

set_option autoImplicit false

/-!
# The poller on top of `poll` (`src/aio/poller_poll.inc`)

The pollset is an array, and each handle knows its index.  Descriptors are not taken out at once:
their slots are linked to a list by their indices, and `grid_poller_wait` fills them with those from
the end of the array.
-/

namespace GridMq.Aio.OnPoll

open GridMq.Library

variable {α : Type} [DecidableEq α]

def pollIn : UInt16 := 0x001
def pollOut : UInt16 := 0x004

/-- `struct pollfd`. -/
structure Pollfd where
  fd : Int
  events : UInt16
  revents : UInt16
  deriving DecidableEq, Repr

/-- `struct grid_hndls_item`.  No index stands for `-1`. -/
structure HndlsItem (α : Type) where
  hndl : Option α
  prev : Option Nat
  next : Option Nat
  deriving DecidableEq, Repr

/-- `struct grid_poller`, and the indices of the handles. -/
structure Poller (α : Type) where
  size : Nat := 0
  index : Nat := 0
  capacity : Nat := 16
  pollset : Nat → Pollfd
  hndls : Nat → HndlsItem α
  removed : Option Nat := none
  /-- the index in each handle -/
  hndlIndex : α → Nat

namespace Poller

/-! ## The operations -/

/-- `grid_poller_add`. -/
def add (self : Poller α) (fd : Int) (hndl : α) : Poller α :=
  { self with
    capacity := if self.size ≥ self.capacity then self.capacity * 2 else self.capacity
    pollset := Function.update self.pollset self.size { fd := fd, events := 0, revents := 0 }
    hndlIndex := Function.update self.hndlIndex hndl self.size
    hndls :=
      Function.update self.hndls self.size { self.hndls self.size with hndl := some hndl }
    size := self.size + 1 }

/-- `hndls [i].prev = prev;`, where the index is not `-1`. -/
def setPrev (hndls : Nat → HndlsItem α) (i prev : Option Nat) : Nat → HndlsItem α :=
  match i with
  | none => hndls
  | some i => Function.update hndls i { hndls i with prev := prev }

/-- `hndls [i].next = next;`, where the index is not `-1`. -/
def setNext (hndls : Nat → HndlsItem α) (i next : Option Nat) : Nat → HndlsItem α :=
  match i with
  | none => hndls
  | some i => Function.update hndls i { hndls i with next := next }

/-- `grid_poller_rm`. -/
def rm (self : Poller α) (hndl : α) : Poller α :=
  let index := self.hndlIndex hndl
  let hndls := setPrev self.hndls self.removed (some index)
  { self with
    pollset := Function.update self.pollset index { self.pollset index with revents := 0 }
    hndls := Function.update hndls index { hndl := none, prev := none, next := self.removed }
    removed := some index }

/-- `grid_poller_set_in`, `grid_poller_set_out`. -/
def set (self : Poller α) (bit : UInt16) (hndl : α) : Poller α :=
  let index := self.hndlIndex hndl
  let fd := self.pollset index
  { self with
    pollset := Function.update self.pollset index { fd with events := fd.events ||| bit } }

/-- `grid_poller_reset_in`, `grid_poller_reset_out`. -/
def reset (self : Poller α) (bit : UInt16) (hndl : α) : Poller α :=
  let index := self.hndlIndex hndl
  let fd := self.pollset index
  { self with
    pollset := Function.update self.pollset index
      { fd with events := fd.events &&& ~~~bit, revents := fd.revents &&& ~~~bit } }

def setIn (self : Poller α) (hndl : α) : Poller α := self.set pollIn hndl
def resetIn (self : Poller α) (hndl : α) : Poller α := self.reset pollIn hndl
def setOut (self : Poller α) (hndl : α) : Poller α := self.set pollOut hndl
def resetOut (self : Poller α) (hndl : α) : Poller α := self.reset pollOut hndl

/-- The removed slot is filled with the one from the end. -/
def fill (self : Poller α) (i : Nat) : Poller α :=
  if i ≠ self.size then
    let hndls := setPrev self.hndls (self.hndls i).next none
    let last := hndls self.size
    { self with
      pollset := Function.update self.pollset i (self.pollset self.size)
      hndls := Function.update hndls i last
      hndlIndex :=
        match last.hndl with
        | some hndl => Function.update self.hndlIndex hndl i
        | none => self.hndlIndex }
  else self

/-- The list of removed slots is adjusted if the slot from the end is on it. -/
def adjust (self : Poller α) (i : Nat) : Poller α :=
  if (self.hndls i).hndl = none then
    let hndls := setNext self.hndls (self.hndls i).prev (some i)
    let hndls := setPrev hndls (hndls i).next (some i)
    { self with
      hndls := hndls
      removed := if self.removed = some self.size then some i else self.removed }
  else self

/-- A turn of the first loop of `grid_poller_wait`, for the removed slot `i`. -/
def drop (self : Poller α) (i : Nat) : Poller α :=
  ({ self with removed := (self.hndls i).next, size := self.size - 1 } : Poller α).fill i |>.adjust i

/-- That loop, with a bound on its turns. -/
def compact : Nat → Poller α → Option (Poller α)
  | 0, _ => none
  | fuel + 1, self =>
      match self.removed with
      | none => some self
      | some i => compact fuel (self.drop i)

/-- The rest of `grid_poller_wait`: `poll` tells what is ready. -/
def poll (self : Poller α) (revents : Nat → UInt16) : Poller α :=
  { self with
    index := 0
    pollset := fun i => { self.pollset i with revents := revents i } }

end Poller

/-! ## Its runs -/

/-- What a handle was added for: its descriptor, and what it polls for. -/
structure Interest where
  fd : Int
  events : UInt16 := 0
  deriving DecidableEq, Repr

/-- A call. -/
inductive PollerCall (α : Type) where
  | add (fd : Int) (hndl : α)
  | rm (hndl : α)
  | setIn (hndl : α)
  | resetIn (hndl : α)
  | setOut (hndl : α)
  | resetOut (hndl : α)
  | wait (revents : Nat → UInt16)

/-- A poller, and the handles that its user has registered. -/
structure PollerUse (α : Type) where
  poller : Poller α
  registered : α → Option Interest

/-- What a call on a registered handle does. -/
def PollerUse.change (s : PollerUse α) (hndl : α) (poller : Poller α)
    (events : UInt16 → UInt16) (s' : PollerUse α) : Prop :=
  ∃ x, s.registered hndl = some x ∧
    s' =
      { poller := poller
        registered :=
          Function.update s.registered hndl (some { x with events := events x.events }) }

/-- The calls of the user: a handle is added when it is not registered, and everything else is done
with registered ones. -/
def PollerUse.Step (s : PollerUse α) : PollerCall α → PollerUse α → Prop
  | .add fd hndl, s' =>
      s.registered hndl = none ∧
        s' =
          { poller := s.poller.add fd hndl
            registered := Function.update s.registered hndl (some { fd := fd }) }
  | .rm hndl, s' =>
      s.registered hndl ≠ none ∧
        s' =
          { poller := s.poller.rm hndl, registered := Function.update s.registered hndl none }
  | .setIn hndl, s' => s.change hndl (s.poller.setIn hndl) (· ||| pollIn) s'
  | .resetIn hndl, s' => s.change hndl (s.poller.resetIn hndl) (· &&& ~~~pollIn) s'
  | .setOut hndl, s' => s.change hndl (s.poller.setOut hndl) (· ||| pollOut) s'
  | .resetOut hndl, s' => s.change hndl (s.poller.resetOut hndl) (· &&& ~~~pollOut) s'
  | .wait revents, s' =>
      ∃ fuel poller, s.poller.compact fuel = some poller ∧
        s' = { s with poller := poller.poll revents }

/-- A poller that is used, from its initialisation on. -/
def pollers (α : Type) [DecidableEq α] : System (PollerUse α) (PollerCall α) where
  init s := s.poller.size = 0 ∧ s.poller.removed = none ∧ s.registered = fun _ => none
  step := PollerUse.Step

theorem PollerUse.step_add {s : PollerUse α} (fd : Int) (hndl : α)
    (hnew : s.registered hndl = none) :
    (pollers α).step s (.add fd hndl)
      { poller := s.poller.add fd hndl
        registered := Function.update s.registered hndl (some { fd := fd }) } := ⟨hnew, rfl⟩

theorem PollerUse.step_rm {s : PollerUse α} (hndl : α) (h : s.registered hndl ≠ none) :
    (pollers α).step s (.rm hndl)
      { poller := s.poller.rm hndl, registered := Function.update s.registered hndl none } :=
  ⟨h, rfl⟩

/-- What a pollset is after the compaction: every registered handle has a slot of its own, with its
descriptor and what it polls for; there are no other slots, and none on the list of removed ones. -/
structure Compacted (p : Poller α) (registered : α → Option Interest) : Prop where
  removed : p.removed = none
  live : ∀ hndl x, registered hndl = some x → p.hndlIndex hndl < p.size ∧
    (p.hndls (p.hndlIndex hndl)).hndl = some hndl ∧
    (p.pollset (p.hndlIndex hndl)).fd = x.fd ∧ (p.pollset (p.hndlIndex hndl)).events = x.events
  only : ∀ i < p.size, ∃ hndl, registered hndl ≠ none ∧ p.hndlIndex hndl = i

/-! ## The list of removed slots -/

variable {p : Poller α} {registered : α → Option Interest} {rs rest as bs : List Nat}
  {first : Option Nat} {hndls : Nat → HndlsItem α} {i j : Nat} {hndl : α}

/-- The links of the slots. -/
def links (hndls : Nat → HndlsItem α) (i : Nat) : ListItem Nat :=
  { next := some (hndls i).next, prev := some (hndls i).prev }

omit [DecidableEq α] in
theorem links_update (hndls : Nat → HndlsItem α) (i : Nat) (x : HndlsItem α) :
    links (Function.update hndls i x) =
      Function.update (links hndls) i { next := some x.next, prev := some x.prev } := by
  funext j
  by_cases h : j = i
  · rw [h, Function.update_self, links, Function.update_self]
  · rw [Function.update_of_ne h, links, links, Function.update_of_ne h]

omit [DecidableEq α] in
theorem links_setPrev (hndls : Nat → HndlsItem α) (i prev : Option Nat) :
    GridList.setPrev (links hndls) (some i) (some prev) =
      .ok (links (Poller.setPrev hndls i prev)) := by
  cases i with
  | none => rfl
  | some i =>
      rw [Poller.setPrev, links_update]
      rfl

omit [DecidableEq α] in
theorem links_setNext (hndls : Nat → HndlsItem α) (i next : Option Nat) :
    GridList.setNext (links hndls) (some i) (some next) =
      .ok (links (Poller.setNext hndls i next)) := by
  cases i with
  | none => rfl
  | some i =>
      rw [Poller.setNext, links_update]
      rfl

omit [DecidableEq α] in
@[simp] theorem hndl_setPrev (hndls : Nat → HndlsItem α) (i prev : Option Nat) (j : Nat) :
    (Poller.setPrev hndls i prev j).hndl = (hndls j).hndl := by
  cases i with
  | none => rfl
  | some i =>
      rw [Poller.setPrev]
      by_cases h : j = i
      · rw [h, Function.update_self]
      · rw [Function.update_of_ne h]

omit [DecidableEq α] in
@[simp] theorem hndl_setNext (hndls : Nat → HndlsItem α) (i next : Option Nat) (j : Nat) :
    (Poller.setNext hndls i next j).hndl = (hndls j).hndl := by
  cases i with
  | none => rfl
  | some i =>
      rw [Poller.setNext]
      by_cases h : j = i
      · rw [h, Function.update_self]
      · rw [Function.update_of_ne h]

omit [DecidableEq α] in
/-- The first slot of a list gets another predecessor. -/
theorem linked_setPrev (h : GridList.Linked (links hndls) first rs none) (hnodup : rs.Nodup)
    (q : Option Nat) : GridList.Linked (links (Poller.setPrev hndls rs.head? q)) q rs none := by
  obtain ⟨items, hset, hlinked, -⟩ := GridList.setPrev_head h hnodup q
  rw [links_setPrev] at hset
  rw [Except.ok.inj hset]
  exact hlinked

omit [DecidableEq α] in
/-- A change outside of a list. -/
theorem linked_update {last : Option Nat} (h : GridList.Linked (links hndls) first rs last)
    (hi : i ∉ rs) (x : HndlsItem α) :
    GridList.Linked (links (Function.update hndls i x)) first rs last := by
  refine h.congr fun j hj => ?_
  have hne : j ≠ i := fun heq => hi (heq ▸ hj)
  rw [links, links, Function.update_of_ne hne]

/-- The slots of a pollset: some are removed and linked to a list, in all others is a registered
handle. -/
structure Slots (p : Poller α) (registered : α → Option Interest) (rs : List Nat)
    (first : Option Nat) : Prop where
  removed : p.removed = rs.head?
  nodup : rs.Nodup
  lt : ∀ r ∈ rs, r < p.size
  empty : ∀ r ∈ rs, (p.hndls r).hndl = none
  linked : GridList.Linked (links p.hndls) first rs none
  /-- the first removed slot may be linked to what is behind the array -/
  stale : ∀ q, first = some q → p.size ≤ q
  slots : ∀ i < p.size, i ∉ rs → ∃ hndl, registered hndl ≠ none ∧ p.hndlIndex hndl = i
  live : ∀ hndl x, registered hndl = some x → p.hndlIndex hndl < p.size ∧
    (p.hndls (p.hndlIndex hndl)).hndl = some hndl ∧
    (p.pollset (p.hndlIndex hndl)).fd = x.fd ∧ (p.pollset (p.hndlIndex hndl)).events = x.events

omit [DecidableEq α] in
/-- Two handles are in different slots. -/
theorem Slots.index_ne (h : Slots p registered rs first) {x y : Interest} {hndl' : α}
    (hx : registered hndl = some x) (hy : registered hndl' = some y) (hne : hndl' ≠ hndl) :
    p.hndlIndex hndl' ≠ p.hndlIndex hndl := by
  intro heq
  have hsame := (h.live hndl' y hy).2.1
  rw [heq, (h.live hndl x hx).2.1] at hsame
  exact hne (Option.some.inj hsame).symm

omit [DecidableEq α] in
/-- The slot of a handle is not removed. -/
theorem Slots.index_notMem (h : Slots p registered rs first) {x : Interest}
    (hx : registered hndl = some x) : p.hndlIndex hndl ∉ rs := by
  intro hmem
  have hempty := h.empty _ hmem
  rw [(h.live hndl x hx).2.1] at hempty
  exact Option.some_ne_none hndl hempty

/-! ## The calls -/

theorem Slots.add (h : Slots p registered rs none) (fd : Int) (hnew : registered hndl = none) :
    Slots (p.add fd hndl) (Function.update registered hndl (some { fd := fd })) rs none := by
  have hsize : p.size ∉ rs := fun hmem => Nat.lt_irrefl _ (h.lt _ hmem)
  refine ⟨h.removed, h.nodup, fun r hr => Nat.lt_succ_of_lt (h.lt r hr), fun r hr => ?_,
    linked_update h.linked hsize _, by simp, fun i hi hmem => ?_, fun hndl' x hx => ?_⟩
  · have hne : r ≠ p.size := Nat.ne_of_lt (h.lt r hr)
    simp only [Poller.add, Function.update_of_ne hne]
    exact h.empty r hr
  · rcases Nat.lt_succ_iff_lt_or_eq.mp hi with hlt | rfl
    · obtain ⟨hndl', hregistered, hindex⟩ := h.slots i hlt hmem
      have hne : hndl' ≠ hndl := fun heq => hregistered (heq ▸ hnew)
      refine ⟨hndl', ?_, ?_⟩
      · rw [Function.update_of_ne hne]
        exact hregistered
      · simp only [Poller.add, Function.update_of_ne hne]
        exact hindex
    · exact ⟨hndl, by simp, by simp [Poller.add]⟩
  · by_cases heq : hndl' = hndl
    · rw [heq, Function.update_self] at hx
      obtain rfl := Option.some.inj hx
      simp [Poller.add, heq]
    · rw [Function.update_of_ne heq] at hx
      obtain ⟨hlt, hslot, hfd, hevents⟩ := h.live hndl' x hx
      have hne : p.hndlIndex hndl' ≠ p.size := Nat.ne_of_lt hlt
      simp only [Poller.add, Function.update_of_ne heq, Function.update_of_ne hne]
      exact ⟨Nat.lt_succ_of_lt hlt, hslot, hfd, hevents⟩

theorem Slots.rm (h : Slots p registered rs none) {x : Interest} (hx : registered hndl = some x) :
    Slots (p.rm hndl) (Function.update registered hndl none) (p.hndlIndex hndl :: rs) none := by
  have hnot := h.index_notMem hx
  have hother : ∀ r, r ≠ p.hndlIndex hndl →
      ((p.rm hndl).hndls r).hndl = (p.hndls r).hndl := by
    intro r hr
    simp only [Poller.rm, Function.update_of_ne hr, hndl_setPrev]
  refine ⟨rfl, List.nodup_cons.mpr ⟨hnot, h.nodup⟩, ?_, ?_, ⟨?_, ?_⟩, by simp, ?_, ?_⟩
  · intro r hr
    rcases List.mem_cons.mp hr with rfl | hr
    · exact (h.live hndl x hx).1
    · exact h.lt r hr
  · intro r hr
    rcases List.mem_cons.mp hr with rfl | hr
    · simp [Poller.rm]
    · rw [hother r fun heq => hnot (heq ▸ hr)]
      exact h.empty r hr
  · simp [links, Poller.rm, h.removed]
  · have hlinked := linked_setPrev h.linked h.nodup (some (p.hndlIndex hndl))
    rw [← h.removed] at hlinked
    exact linked_update hlinked hnot _
  · intro i hi hmem
    rw [List.mem_cons, not_or] at hmem
    obtain ⟨hndl', hregistered, hindex⟩ := h.slots i hi hmem.2
    have hne : hndl' ≠ hndl := fun heq => hmem.1 (by rw [← hindex, heq])
    exact ⟨hndl', by rwa [Function.update_of_ne hne], hindex⟩
  · intro hndl' y hy
    by_cases heq : hndl' = hndl
    · rw [heq, Function.update_self] at hy
      exact absurd hy (by simp)
    · rw [Function.update_of_ne heq] at hy
      have hne := h.index_ne hx hy heq
      obtain ⟨hlt, hslot, hfd, hevents⟩ := h.live hndl' y hy
      refine ⟨hlt, (hother _ hne).trans hslot, ?_, ?_⟩
      · simp only [Poller.rm, Function.update_of_ne hne]
        exact hfd
      · simp only [Poller.rm, Function.update_of_ne hne]
        exact hevents

/-- A handle polls for something else. -/
theorem Slots.change (h : Slots p registered rs none) {x : Interest}
    (hx : registered hndl = some x) {fd : Pollfd} {events : UInt16} (hfd : fd.fd = x.fd)
    (hevents : fd.events = events) :
    Slots { p with pollset := Function.update p.pollset (p.hndlIndex hndl) fd }
      (Function.update registered hndl (some { x with events := events })) rs none := by
  refine ⟨h.removed, h.nodup, h.lt, h.empty, h.linked, h.stale, fun i hi hmem => ?_,
    fun hndl' y hy => ?_⟩
  · obtain ⟨hndl', hregistered, hindex⟩ := h.slots i hi hmem
    refine ⟨hndl', ?_, hindex⟩
    by_cases heq : hndl' = hndl
    · rw [heq, Function.update_self]
      exact Option.some_ne_none _
    · rwa [Function.update_of_ne heq]
  · by_cases heq : hndl' = hndl
    · rw [heq, Function.update_self] at hy
      obtain rfl := Option.some.inj hy
      obtain ⟨hlt, hslot, -⟩ := h.live hndl x hx
      rw [heq]
      simp only [Function.update_self]
      exact ⟨hlt, hslot, hfd, hevents⟩
    · rw [Function.update_of_ne heq] at hy
      have hne := h.index_ne hx hy heq
      simp only [Function.update_of_ne hne]
      exact h.live hndl' y hy

/-! ## The compaction -/

omit [DecidableEq α] in
theorem Slots.links_first (h : Slots p registered (i :: rest) first) :
    (p.hndls i).next = rest.head? ∧ (p.hndls i).prev = first := by
  have hi := h.linked.1
  rw [Option.or_none, links] at hi
  injection hi with hnext hprev
  exact ⟨Option.some.inj hnext, Option.some.inj hprev⟩

omit [DecidableEq α] in
theorem next_setNext_of_ne {q : Option Nat} (h : q ≠ some j) (next : Option Nat) :
    (Poller.setNext hndls q next j) = hndls j := by
  cases q with
  | none => rfl
  | some q =>
      refine Function.update_of_ne ?_ _ _
      rintro rfl
      exact h rfl

theorem Slots.drop_last_eq (h : Slots p registered (i :: rest) first) (hsize : p.size = i + 1) :
    p.drop i =
      { p with
        removed := rest.head?
        size := i
        hndls := Poller.setPrev (Poller.setNext p.hndls first (some i)) rest.head? (some i) } := by
  obtain ⟨hnext, hprev⟩ := h.links_first
  have hempty := h.empty i List.mem_cons_self
  have hfirst : first ≠ some i := by
    intro heq
    have hle := h.stale i heq
    omega
  have hrest : rest.head? ≠ some i := fun heq =>
    (List.nodup_cons.mp h.nodup).1 (List.mem_of_mem_head? heq)
  rw [Poller.drop, hsize, Nat.add_sub_cancel]
  simp only [Poller.fill, ne_eq, not_true_eq_false, if_false, Poller.adjust, hempty, if_true, hprev,
    next_setNext_of_ne hfirst, hnext, if_neg hrest]

/-- The last slot is the removed one. -/
theorem Slots.drop_last (h : Slots p registered (i :: rest) first) (hsize : p.size = i + 1) :
    Slots (p.drop i) registered rest (some i) := by
  obtain ⟨hnot, hnodup⟩ := List.nodup_cons.mp h.nodup
  have hempty := h.empty i List.mem_cons_self
  have hbelow : ∀ j < p.size, j ≠ i → j < i := fun j hlt hne => by omega
  rw [h.drop_last_eq hsize]
  refine ⟨rfl, hnodup, fun r hr => ?_, fun r hr => ?_, ?_, fun q hq => ?_, fun j hj hmem => ?_,
    fun hndl x hx => ?_⟩
  · exact hbelow r (h.lt r (List.mem_cons_of_mem i hr)) fun heq => hnot (heq ▸ hr)
  · rw [hndl_setPrev, hndl_setNext]
    exact h.empty r (List.mem_cons_of_mem i hr)
  · refine linked_setPrev (?_ : GridList.Linked _ (some i) rest none) hnodup (some i)
    cases hq : first with
    | none => exact h.linked.2
    | some q =>
        refine linked_update h.linked.2 (fun hmem => ?_) _
        have hlt := h.lt q (List.mem_cons_of_mem i hmem)
        have hle := h.stale q hq
        omega
  · exact Nat.le_of_eq (Option.some.inj hq)
  · change j < i at hj
    have hne : j ≠ i := Nat.ne_of_lt hj
    exact h.slots j (by omega) fun hcons => (List.mem_cons.mp hcons).elim hne hmem
  · obtain ⟨hlt, hslot, hpollfd⟩ := h.live hndl x hx
    have hne : p.hndlIndex hndl ≠ i := fun heq =>
      h.index_notMem hx (heq ▸ List.mem_cons_self)
    refine ⟨hbelow _ hlt hne, ?_, hpollfd⟩
    rw [hndl_setPrev, hndl_setNext]
    exact hslot

/-- A handle from the end is put into the removed slot. -/
theorem Slots.drop_live (h : Slots p registered (i :: rest) first) (hne : i ≠ p.size - 1)
    (hlast : (p.hndls (p.size - 1)).hndl = some hndl) :
    Slots (p.drop i) registered rest none := by
  obtain ⟨hnot, hnodup⟩ := List.nodup_cons.mp h.nodup
  obtain ⟨hnext, hprev⟩ := h.links_first
  have hi := h.lt i List.mem_cons_self
  have hout : p.size - 1 ∉ i :: rest := by
    intro hmem
    have hempty := h.empty _ hmem
    rw [hlast] at hempty
    exact Option.some_ne_none hndl hempty
  let hndls := Poller.setPrev p.hndls rest.head? none
  have hlast' : (hndls (p.size - 1)).hndl = some hndl := (hndl_setPrev _ _ _ _).trans hlast
  have hdrop : p.drop i =
      { p with
        removed := rest.head?
        size := p.size - 1
        pollset := Function.update p.pollset i (p.pollset (p.size - 1))
        hndls := Function.update hndls i (hndls (p.size - 1))
        hndlIndex := Function.update p.hndlIndex hndl i } := by
    rw [Poller.drop, hnext, Poller.fill]
    simp only [if_pos hne, hnext]
    change Poller.adjust
      { p with
        removed := rest.head?
        size := p.size - 1
        pollset := Function.update p.pollset i (p.pollset (p.size - 1))
        hndls := Function.update hndls i (hndls (p.size - 1))
        hndlIndex :=
          match (hndls (p.size - 1)).hndl with
          | some hndl => Function.update p.hndlIndex hndl i
          | none => p.hndlIndex } i = _
    rw [hlast', Poller.adjust]
    simp only [Function.update_self, hlast', reduceCtorEq, if_false]
  obtain ⟨hndl', hregistered, hindex⟩ := h.slots (p.size - 1) (by omega) hout
  obtain ⟨x, hx⟩ := Option.ne_none_iff_exists'.mp hregistered
  have hsame : hndl' = hndl := by
    have hslot := (h.live hndl' x hx).2.1
    rw [hindex, hlast] at hslot
    exact (Option.some.inj hslot).symm
  rw [hsame] at hindex hx
  have hlinked : GridList.Linked (links hndls) none rest none :=
    linked_setPrev h.linked.2 hnodup none
  rw [hdrop]
  refine ⟨rfl, hnodup, fun r hr => ?_, fun r hr => ?_, linked_update hlinked hnot _, by simp,
    fun j hj hmem => ?_, fun hndl₁ y hy => ?_⟩
  · have hlt := h.lt r (List.mem_cons_of_mem i hr)
    have hr' : r ≠ p.size - 1 := fun heq => hout (heq ▸ List.mem_cons_of_mem i hr)
    change r < p.size - 1
    omega
  · have hr' : r ≠ i := fun heq => hnot (heq ▸ hr)
    simp only [Function.update_of_ne hr', hndls, hndl_setPrev]
    exact h.empty r (List.mem_cons_of_mem i hr)
  · change j < p.size - 1 at hj
    by_cases heq : j = i
    · refine ⟨hndl, by rw [hx]; exact Option.some_ne_none x, ?_⟩
      rw [heq]
      exact Function.update_self _ _ _
    · obtain ⟨hndl₁, hregistered₁, hindex₁⟩ := h.slots j (by omega) fun hcons =>
        (List.mem_cons.mp hcons).elim heq hmem
      refine ⟨hndl₁, hregistered₁, (Function.update_of_ne ?_ _ _).trans hindex₁⟩
      rintro rfl
      omega
  · by_cases heq : hndl₁ = hndl
    · rw [heq, hx] at hy
      obtain rfl := Option.some.inj hy
      rw [heq]
      simp only [Function.update_self]
      refine ⟨by omega, hlast', ?_⟩
      rw [← hindex]
      exact (h.live hndl x hx).2.2
    · obtain ⟨hlt, hslot, hpollfd⟩ := h.live hndl₁ y hy
      have hother := h.index_ne hx hy heq
      have hnei : p.hndlIndex hndl₁ ≠ i := fun heq =>
        h.index_notMem hy (heq ▸ List.mem_cons_self)
      simp only [Function.update_of_ne heq, Function.update_of_ne hnei, hndls, hndl_setPrev]
      exact ⟨by omega, hslot, hpollfd⟩

/-- A slot from the end that is removed as well takes the place of the removed one. -/
theorem Slots.drop_removed (h : Slots p registered (i :: (as ++ j :: bs)) first)
    (hj : j = p.size - 1) : Slots (p.drop i) registered (as ++ i :: bs) none := by
  obtain ⟨hnot, hnodup⟩ := List.nodup_cons.mp h.nodup
  obtain ⟨hnext, hprev⟩ := h.links_first
  have hi := h.lt i List.mem_cons_self
  have hrest : ∀ r ∈ as ++ bs, r ∈ as ++ j :: bs := fun r hr =>
    ((List.sublist_cons_self j bs).append_left as).subset hr
  have hjmem : j ∈ as ++ j :: bs := List.mem_append_right as List.mem_cons_self
  have hne : i ≠ j := fun heq => hnot (heq ▸ hjmem)
  have hmiddle := hnodup
  rw [List.nodup_middle, List.nodup_cons] at hmiddle
  obtain ⟨hnodupAs, hnodupBs, hdisjoint⟩ := List.nodup_append.mp hmiddle.2
  have hias : i ∉ as := fun hmem => hnot (hrest i (List.mem_append_left bs hmem))
  have hibs : i ∉ bs := fun hmem => hnot (hrest i (List.mem_append_right as hmem))
  have hjas : j ∉ as := fun hmem => hmiddle.1 (List.mem_append_left bs hmem)
  have hlinked : GridList.Linked (links (Poller.setPrev p.hndls (as ++ j :: bs).head? none)) none
      (as ++ j :: bs) none := linked_setPrev h.linked.2 hnodup none
  generalize hhndls : Poller.setPrev p.hndls (as ++ j :: bs).head? none = hndls at hlinked
  have hhndl : ∀ r, (hndls r).hndl = (p.hndls r).hndl := fun r => by
    rw [← hhndls, hndl_setPrev]
  have hlast : (hndls j).hndl = none := (hhndl j).trans (h.empty j (List.mem_cons_of_mem i hjmem))
  obtain ⟨hlinkAs, hlinkJ, hlinkBs⟩ := (GridList.linked_append as (j :: bs)).mp hlinked
  rw [Option.or_none, Option.or_none, links] at hlinkJ
  injection hlinkJ with hnextJ hprevJ
  replace hnextJ := Option.some.inj hnextJ
  replace hprevJ := Option.some.inj hprevJ
  let moved := Function.update hndls i (hndls j)
  have hlastAs : as.getLast? ≠ some i := fun heq => hias (List.mem_of_getLast? heq)
  have hdrop : p.drop i =
      { p with
        removed := (as ++ i :: bs).head?
        size := j
        pollset := Function.update p.pollset i (p.pollset j)
        hndls := Poller.setPrev (Poller.setNext moved as.getLast? (some i)) bs.head? (some i) } := by
    have hhead : (if (as ++ j :: bs).head? = some j then some i else (as ++ j :: bs).head?) =
        (as ++ i :: bs).head? := by
      cases as with
      | nil => exact if_pos rfl
      | cons a as =>
          refine if_neg fun heq => hjas ?_
          rw [Option.some.inj heq]
          exact List.mem_cons_self
    rw [Poller.drop, hnext, Poller.fill]
    simp only [← hj, if_pos hne, hnext, hhndls, hlast]
    rw [Poller.adjust]
    simp only [Function.update_self, hlast, if_true, hprevJ, hhead]
    rw [next_setNext_of_ne hlastAs, Function.update_self, hnextJ]
  have hnew : GridList.Linked
      (links (Poller.setPrev (Poller.setNext moved as.getLast? (some i)) bs.head? (some i))) none
      (as ++ i :: bs) none := by
    obtain ⟨items, hset, hlinkAs', hsame⟩ :=
      GridList.setNext_getLast (linked_update hlinkAs hias (hndls j)) hnodupAs (some i)
    rw [links_setNext] at hset
    obtain rfl := Except.ok.inj hset
    have hlinkBs' : GridList.Linked (links (Poller.setNext moved as.getLast? (some i))) (some j) bs
        none := by
      refine (linked_update hlinkBs hibs (hndls j)).congr fun k hk => hsame k fun hkas => ?_
      exact hdisjoint k hkas k hk rfl
    obtain ⟨items, hset', hlinkBs'', hsame'⟩ := GridList.setPrev_head hlinkBs' hnodupBs (some i)
    rw [links_setPrev] at hset'
    obtain rfl := Except.ok.inj hset'
    refine (GridList.linked_append as (i :: bs)).mpr ⟨hlinkAs'.congr ?_, ?_, hlinkBs''⟩
    · exact fun k hk => hsame' k fun hkbs => hdisjoint k hk k hkbs rfl
    · rw [hsame' i hibs, hsame i hias, links_update, Function.update_self, hnextJ, hprevJ,
        Option.or_none, Option.or_none]
  rw [hdrop]
  refine ⟨rfl, ?_, fun r hr => ?_, fun r hr => ?_, hnew, by simp, fun k hk hmem => ?_,
    fun hndl x hx => ?_⟩
  · rw [List.nodup_middle, List.nodup_cons]
    exact ⟨fun hmem => hnot (hrest i hmem), hmiddle.2⟩
  · change r < j
    rcases List.mem_cons.mp (List.perm_middle.mem_iff.mp hr) with rfl | hr
    · omega
    · have hlt := h.lt r (List.mem_cons_of_mem i (hrest r hr))
      have hne' : r ≠ j := fun heq => hmiddle.1 (heq ▸ hr)
      omega
  · rw [hndl_setPrev, hndl_setNext]
    by_cases heq : r = i
    · rw [heq]
      simp only [moved, Function.update_self]
      exact hlast
    · have hr' := (List.mem_cons.mp (List.perm_middle.mem_iff.mp hr)).resolve_left heq
      simp only [moved, Function.update_of_ne heq, hhndl]
      exact h.empty r (List.mem_cons_of_mem i (hrest r hr'))
  · change k < j at hk
    refine h.slots k (by omega) fun hcons => hmem ?_
    rcases List.mem_cons.mp hcons with rfl | hcons
    · exact List.mem_append_right as List.mem_cons_self
    · have hne' : k ≠ j := Nat.ne_of_lt hk
      have hk' := (List.mem_cons.mp (List.perm_middle.mem_iff.mp hcons)).resolve_left hne'
      exact ((List.sublist_cons_self i bs).append_left as).subset hk'
  · obtain ⟨hlt, hslot, hpollfd⟩ := h.live hndl x hx
    have hmem := h.index_notMem hx
    have hnei : p.hndlIndex hndl ≠ i := fun heq => hmem (heq ▸ List.mem_cons_self)
    have hnej : p.hndlIndex hndl ≠ j := by
      intro heq
      rw [heq] at hmem
      exact hmem (List.mem_cons_of_mem i hjmem)
    simp only [hndl_setPrev, hndl_setNext, moved, Function.update_of_ne hnei, hhndl]
    exact ⟨by omega, hslot, hpollfd⟩

/-- A turn of the loop: one removed slot less. -/
theorem Slots.drop (h : Slots p registered (i :: rest) first) : ∃ rest' first',
    Slots (p.drop i) registered rest' first' ∧ rest'.length = rest.length := by
  have hi := h.lt i List.mem_cons_self
  by_cases hlast : i = p.size - 1
  · exact ⟨rest, some i, h.drop_last (by omega), rfl⟩
  · by_cases hmem : p.size - 1 ∈ rest
    · obtain ⟨as, bs, hsplit⟩ := List.append_of_mem hmem
      rw [hsplit] at h
      refine ⟨as ++ i :: bs, none, h.drop_removed rfl, ?_⟩
      rw [hsplit, List.length_append, List.length_append, List.length_cons, List.length_cons]
    · obtain ⟨hndl, hregistered, hindex⟩ := h.slots (p.size - 1) (by omega) fun hcons =>
        (List.mem_cons.mp hcons).elim (Ne.symm hlast) hmem
      obtain ⟨x, hx⟩ := Option.ne_none_iff_exists'.mp hregistered
      have hslot := (h.live hndl x hx).2.1
      rw [hindex] at hslot
      exact ⟨rest, none, h.drop_live hlast hslot, rfl⟩

/-- The loop ends with a pollset without holes. -/
theorem Slots.compact (h : Slots p registered rs first) {fuel : Nat} (hfuel : rs.length < fuel) :
    ∃ p', p.compact fuel = some p' := by
  induction fuel generalizing p rs first with
  | zero => exact absurd hfuel (Nat.not_lt_zero _)
  | succ fuel ih =>
      rw [Poller.compact, h.removed]
      cases rs with
      | nil => exact ⟨p, rfl⟩
      | cons i rest =>
          obtain ⟨rest', first', hdrop, hlength⟩ := h.drop
          exact ih hdrop (by rw [hlength]; exact Nat.lt_of_succ_lt_succ hfuel)

theorem Slots.compact_slots (h : Slots p registered rs first) {fuel : Nat} {p' : Poller α}
    (hcompact : p.compact fuel = some p') : Slots p' registered [] none := by
  induction fuel generalizing p rs first with
  | zero => exact absurd hcompact (by simp [Poller.compact])
  | succ fuel ih =>
      rw [Poller.compact, h.removed] at hcompact
      cases rs with
      | nil =>
          obtain rfl := Option.some.inj hcompact
          exact ⟨h.removed, h.nodup, h.lt, h.empty, trivial, by simp, h.slots, h.live⟩
      | cons i rest =>
          obtain ⟨rest', first', hdrop, -⟩ := h.drop
          exact ih hdrop hcompact

omit [DecidableEq α] in
theorem Slots.compacted (h : Slots p registered [] none) : Compacted p registered :=
  ⟨h.removed, h.live, fun i hi => h.slots i hi List.not_mem_nil⟩

/-! ## All runs -/

variable {s s' : PollerUse α} {l : PollerCall α}

/-- The handles are in the slots that are not removed. -/
def Inv (s : PollerUse α) : Prop := ∃ rs, Slots s.poller s.registered rs none

theorem Inv.step (hinv : Inv s) (hstep : s.Step l s') : Inv s' := by
  obtain ⟨rs, h⟩ := hinv
  cases l with
  | add fd hndl =>
      obtain ⟨hnew, rfl⟩ := hstep
      exact ⟨rs, h.add fd hnew⟩
  | rm hndl =>
      obtain ⟨hregistered, rfl⟩ := hstep
      obtain ⟨x, hx⟩ := Option.ne_none_iff_exists'.mp hregistered
      exact ⟨_, h.rm hx⟩
  | setIn hndl =>
      obtain ⟨x, hx, rfl⟩ := hstep
      obtain ⟨-, -, hfd, hevents⟩ := h.live hndl x hx
      exact ⟨rs, h.change hx hfd (congrArg (· ||| pollIn) hevents)⟩
  | resetIn hndl =>
      obtain ⟨x, hx, rfl⟩ := hstep
      obtain ⟨-, -, hfd, hevents⟩ := h.live hndl x hx
      exact ⟨rs, h.change hx hfd (congrArg (· &&& ~~~pollIn) hevents)⟩
  | setOut hndl =>
      obtain ⟨x, hx, rfl⟩ := hstep
      obtain ⟨-, -, hfd, hevents⟩ := h.live hndl x hx
      exact ⟨rs, h.change hx hfd (congrArg (· ||| pollOut) hevents)⟩
  | resetOut hndl =>
      obtain ⟨x, hx, rfl⟩ := hstep
      obtain ⟨-, -, hfd, hevents⟩ := h.live hndl x hx
      exact ⟨rs, h.change hx hfd (congrArg (· &&& ~~~pollOut) hevents)⟩
  | wait revents =>
      obtain ⟨fuel, p, hcompact, rfl⟩ := hstep
      have hslots := h.compact_slots hcompact
      exact ⟨[], hslots.removed, hslots.nodup, hslots.lt, hslots.empty, trivial, by simp,
        hslots.slots, hslots.live⟩

theorem inv_reachable (hs : (pollers α).Reachable s) : Inv s := by
  refine hs.invariant ?_ fun s l s' _ hinv hstep => hinv.step hstep
  rintro s ⟨hsize, hremoved, hregistered⟩
  refine ⟨[], hremoved, List.nodup_nil, by simp, by simp, trivial, by simp, ?_, ?_⟩
  · intro i hi
    rw [hsize] at hi
    exact absurd hi (Nat.not_lt_zero i)
  · intro hndl x hx
    rw [hregistered] at hx
    exact absurd hx (by simp)

/-- In every run a wait gets rid of the removed slots, and after it the pollset is that of the
registered handles. -/
theorem wait_compacts (hs : (pollers α).Reachable s) (revents : Nat → UInt16) :
    (∃ s', (pollers α).step s (.wait revents) s') ∧
      ∀ s', (pollers α).step s (.wait revents) s' → Compacted s'.poller s'.registered := by
  obtain ⟨rs, h⟩ := inv_reachable hs
  constructor
  · obtain ⟨p, hcompact⟩ := h.compact (Nat.lt_succ_self _)
    exact ⟨_, _, p, hcompact, rfl⟩
  · rintro s' ⟨fuel, p, hcompact, rfl⟩
    have hcompacted := (h.compact_slots hcompact).compacted
    exact ⟨hcompacted.removed, hcompacted.live, hcompacted.only⟩

/-- Of three handles the first and the last one are removed. -/
theorem wait_compacts_three : ∃ s : PollerUse Nat,
    s.poller.size = 3 ∧ s.poller.removed = some 2 ∧
      (∃ s', (pollers Nat).step s (.wait fun _ => 1) s') ∧
        ∀ s', (pollers Nat).step s (.wait fun _ => 1) s' → Compacted s'.poller s'.registered := by
  let p : Poller Nat :=
    { pollset := fun _ => ⟨0, 0, 0⟩, hndls := fun _ => ⟨none, none, none⟩, hndlIndex := fun _ => 0 }
  have hstart : (pollers Nat).Reachable { poller := p, registered := fun _ => none } :=
    .start ⟨rfl, rfl, rfl⟩
  have hone := hstart.step (PollerUse.step_add 10 1 rfl)
  have htwo := hone.step (PollerUse.step_add 11 2 rfl)
  have hthree := htwo.step (PollerUse.step_add 12 3 rfl)
  have hfirst := hthree.step (PollerUse.step_rm 1 (by simp))
  have hlast := hfirst.step (PollerUse.step_rm 3 (by simp))
  exact ⟨_, rfl, rfl, wait_compacts hlast _⟩

end GridMq.Aio.OnPoll
