import GridMq.Core.Global
import GridMq.Library.Transition
import Mathlib.Data.List.Perm.Subperm

set_option autoImplicit false

/-!
# The table of descriptors (`src/core/global.c`)

A descriptor is the number of a slot of `self.socks`.  The descriptors without a socket lie
in the array `self.unused`, of which the first `GRID_MAX_SOCKETS - self.nsocks` entries are
in use as a stack.  The table is allocated by the first `grid_socket` and freed with the last
socket.  `grid_socket` runs under the global lock as a whole, `grid_close` in two parts.
-/

namespace GridMq.Core

open GridMq.Library

/-- What a slot of the table holds: a socket that is open, or one whose `grid_close` is in
progress. -/
inductive Slot where
  | opened | closing
  deriving DecidableEq, Repr

/-- The part of `struct grid_global` that concerns the descriptors. -/
structure SocketTable where
  /-- `self.socks` is not NULL -/
  allocated : Bool := false
  socks : Nat → Option Slot := fun _ => none
  unused : Nat → Nat := fun _ => 0
  nsocks : Nat := 0
  /-- `GRID_CTX_FLAG_ZOMBIE` -/
  zombie : Bool := false

/-- `AF_SP` and `AF_SP_RAW`. -/
def afSp : Int := 1
def afSpRaw : Int := 2

/-- `GRID_PUB`. -/
def gridPub : Int := 32

/-- The socket types that `grid_global_init` plugs in, each with its domain: PAIR, PUB, SUB,
REQ, REP, PUSH, PULL, SURVEYOR, RESPONDENT and BUS. -/
def socktypes : List (Int × Int) :=
  [afSp, afSpRaw].flatMap fun domain =>
    [16, gridPub, 33, 48, 49, 80, 81, 98, 99, 112].map fun protocol => (domain, protocol)

/-- Why `grid_global_create_socket` fails. -/
inductive CreateError where
  | eafnosupport
  /-- the limit of sockets was reached -/
  | emfile
  /-- `grid_sock_init` fails -/
  | sockInit (e : Errno)
  | einval
  deriving DecidableEq, Repr

/-- Why `grid_socket` fails. -/
inductive SocketError where
  | eterm
  | create (e : CreateError)
  deriving DecidableEq, Repr

namespace SocketTable

/-- `grid_global_create_socket`.  `init` is the error of `grid_sock_init`. -/
def createSocket (self : SocketTable) (domain protocol : Int) (init : Option Errno) :
    SocketTable × Except CreateError Nat :=
  if domain ≠ afSp ∧ domain ≠ afSpRaw then (self, .error .eafnosupport)
  else if gridMaxSockets ≤ self.nsocks then (self, .error .emfile)
  else
    let s := self.unused (gridMaxSockets - self.nsocks - 1)
    if (domain, protocol) ∈ socktypes then
      match init with
      | some e => (self, .error (.sockInit e))
      | none =>
          ({ self with
            socks := Function.update self.socks s (some .opened), nsocks := self.nsocks + 1 },
            .ok s)
    else (self, .error .einval)

/-- The table as it is allocated. -/
def fresh : SocketTable where
  allocated := true
  unused i := gridMaxSockets - i - 1

/-- `grid_global_init`.  With `GRID_STATISTICS_SOCKET` in the environment there is a socket for
statistics, and the process ends if it or its endpoint cannot be created. -/
def globalInit (self : SocketTable) (stat : Option Bool) : Except Abort SocketTable :=
  if self.allocated then .ok self
  else
    match stat with
    | none => .ok fresh
    | some false => .error .errnum
    | some true => .ok (fresh.createSocket afSp gridPub none).1

/-- `grid_global_term`. -/
def globalTerm (self : SocketTable) : Except Abort SocketTable := do
  gridAssert (self.allocated = true)
  if 0 < self.nsocks then return self
  else return { zombie := self.zombie }

/-- `grid_socket`. -/
def gridSocket (self : SocketTable) (domain protocol : Int) (stat : Option Bool)
    (init : Option Errno) : Except Abort (SocketTable × Except SocketError Nat) :=
  if self.zombie then .ok (self, .error .eterm)
  else do
    let self ← self.globalInit stat
    match self.createSocket domain protocol init with
    | (self, .error e) => do
        let self ← self.globalTerm
        return (self, .error (.create e))
    | (self, .ok s) => return (self, .ok s)

/-- `grid_close` until it unlocks: the socket is held, stopped and released. -/
def gridClose (self : SocketTable) (s : Int) : Except Errno SocketTable :=
  if self.allocated = false then .error .eterm
  else if self.zombie then .error .eterm
  else if s < 0 ∨ (gridMaxSockets : Int) ≤ s then .error .ebadf
  else
    match self.socks s.toNat with
    | none => .error .ebadf
    | some .closing => .error .ebadf
    | some .opened =>
        .ok { self with socks := Function.update self.socks s.toNat (some .closing) }

/-- The rest of `grid_close`, after `grid_sock_term` has returned. -/
def closed (self : SocketTable) (s : Nat) : Except Abort SocketTable :=
  let self := { self with
    socks := Function.update self.socks s none
    unused := Function.update self.unused (gridMaxSockets - self.nsocks) s
    nsocks := self.nsocks - 1 }
  self.globalTerm

/-- What can happen. -/
inductive Label where
  | socket (domain protocol : Int) (stat : Option Bool) (init : Option Errno)
  | close (s : Int)
  | closed (s : Nat)
  | term

/-- A close that is in progress can come to its end. -/
def Enabled (self : SocketTable) : Label → Prop
  | .socket _ _ _ _ => True
  | .close _ => True
  | .closed s => self.socks s = some .closing
  | .term => True

instance (self : SocketTable) (l : Label) : Decidable (self.Enabled l) := by
  cases l <;> unfold Enabled <;> infer_instance

/-- One step. -/
def next (self : SocketTable) : Label → Except Abort SocketTable
  | .socket domain protocol stat init => do
      let r ← self.gridSocket domain protocol stat init
      return r.1
  | .close s =>
      match self.gridClose s with
      | .error _ => .ok self
      | .ok self => .ok self
  | .closed s => self.closed s
  | .term => .ok { self with zombie := true }

/-- The runs of the table. -/
def system : System SocketTable Label where
  init s := s = {}
  step s l s' := s.Enabled l ∧ s.next l = .ok s'

/-- The free descriptors: `unused [0 .. GRID_MAX_SOCKETS - nsocks - 1]`. -/
def stack (self : SocketTable) : List Nat :=
  (List.range (gridMaxSockets - self.nsocks)).map self.unused

/-! ## The invariant -/

/-- The stack holds the descriptors without a socket, once each. -/
structure Stacked (s : SocketTable) : Prop where
  nodup : s.stack.Nodup
  free : ∀ fd, fd ∈ s.stack ↔ fd < gridMaxSockets ∧ s.socks fd = none
  range : ∀ fd, s.socks fd ≠ none → fd < gridMaxSockets
  few : s.nsocks ≤ gridMaxSockets

/-- The invariant. -/
structure Inv (s : SocketTable) : Prop where
  table : s.allocated = true → s.Stacked
  used : s.allocated = true → 0 < s.nsocks
  unallocated : s.allocated = false → s = { zombie := s.zombie }

variable {s s' : SocketTable}

/-- There is a free descriptor as long as fewer sockets than slots are counted. -/
theorem stack_concat (h : s.nsocks < gridMaxSockets) :
    s.stack = (List.range (gridMaxSockets - (s.nsocks + 1))).map s.unused ++
      [s.unused (gridMaxSockets - s.nsocks - 1)] := by
  have hsucc : gridMaxSockets - s.nsocks = gridMaxSockets - (s.nsocks + 1) + 1 := by omega
  rw [stack, hsucc, List.range_succ, List.map_append, List.map_singleton, Nat.add_sub_cancel]

theorem length_stack (s : SocketTable) : s.stack.length = gridMaxSockets - s.nsocks := by
  rw [stack, List.length_map, List.length_range]

/-- With no socket counted, every slot is free. -/
theorem Stacked.all_free (h : s.Stacked) (hzero : s.nsocks = 0) (fd : Nat) : s.socks fd = none := by
  by_contra hused
  have hlt := h.range fd hused
  have hsub : s.stack.Subperm (List.range gridMaxSockets) := by
    refine List.subperm_of_subset h.nodup ?_
    intro a ha
    exact List.mem_range.mpr ((h.free a).mp ha).1
  have hperm := hsub.perm_of_length_le (by rw [length_stack, hzero, List.length_range]; omega)
  exact hused ((h.free fd).mp (hperm.mem_iff.mpr (List.mem_range.mpr hlt))).2

theorem Stacked.full_iff (h : s.Stacked) :
    gridMaxSockets ≤ s.nsocks ↔ ∀ fd, fd < gridMaxSockets → s.socks fd ≠ none := by
  constructor
  · intro hfull fd hfd hnone
    have hempty : s.stack = [] := by
      refine List.eq_nil_of_length_eq_zero ?_
      rw [length_stack]
      omega
    have hmem := (h.free fd).mpr ⟨hfd, hnone⟩
    rw [hempty] at hmem
    exact List.not_mem_nil hmem
  · intro hused
    by_contra hlt
    have hmem : s.unused (gridMaxSockets - s.nsocks - 1) ∈ s.stack := by
      rw [stack_concat (by omega)]
      simp
    obtain ⟨hfd, hnone⟩ := (h.free _).mp hmem
    exact hused _ hfd hnone

theorem stacked_fresh : fresh.Stacked := by
  have hstack : fresh.stack = (List.range gridMaxSockets).map fun i => gridMaxSockets - i - 1 := rfl
  refine ⟨?_, ?_, fun fd h => absurd rfl h, Nat.zero_le _⟩
  · rw [hstack]
    refine List.Nodup.map_on ?_ List.nodup_range
    intro i hi j hj hij
    rw [List.mem_range] at hi hj
    omega
  · intro fd
    rw [hstack, List.mem_map]
    constructor
    · rintro ⟨i, hi, rfl⟩
      rw [List.mem_range] at hi
      exact ⟨by omega, rfl⟩
    · rintro ⟨hfd, -⟩
      exact ⟨gridMaxSockets - fd - 1, List.mem_range.mpr (by omega), by omega⟩

/-- The socket in the slot on top of the stack. -/
theorem Stacked.pop (h : s.Stacked) (hlt : s.nsocks < gridMaxSockets) :
    s.socks (s.unused (gridMaxSockets - s.nsocks - 1)) = none ∧
      Stacked { s with
        socks := Function.update s.socks (s.unused (gridMaxSockets - s.nsocks - 1)) (some .opened)
        nsocks := s.nsocks + 1 } := by
  have hconcat := stack_concat hlt
  have hnd := h.nodup
  rw [hconcat, List.nodup_append] at hnd
  obtain ⟨hnd, -, hnotin⟩ := hnd
  have htop := (h.free (s.unused (gridMaxSockets - s.nsocks - 1))).mp (by rw [hconcat]; simp)
  refine ⟨htop.2, hnd, ?_, ?_, hlt⟩
  · intro fd
    have hfree := h.free fd
    rw [hconcat, List.mem_append, List.mem_singleton] at hfree
    change fd ∈ (List.range _).map s.unused ↔ _
    simp only [Function.update_apply]
    by_cases hfd : fd = s.unused (gridMaxSockets - s.nsocks - 1)
    · rw [if_pos hfd]
      constructor
      · intro hin
        exact absurd hfd (hnotin fd hin _ (List.mem_singleton.mpr rfl))
      · rintro ⟨-, hno⟩
        exact absurd hno (by simp)
    · rw [if_neg hfd, ← hfree]
      exact (or_iff_left hfd).symm
  · intro fd hfd
    simp only [Function.update_apply] at hfd
    split at hfd
    · rename_i heq
      rw [heq]
      exact htop.1
    · exact h.range fd hfd

/-- A slot that becomes free is put on top. -/
theorem Stacked.push (h : s.Stacked) {fd : Nat} (hused : s.socks fd ≠ none) :
    Stacked { s with
      socks := Function.update s.socks fd none
      unused := Function.update s.unused (gridMaxSockets - s.nsocks) fd
      nsocks := s.nsocks - 1 } := by
  have hlt := h.range fd hused
  have hpos : 0 < s.nsocks := by
    by_contra hzero
    exact hused (h.all_free (by omega) fd)
  have hnotin : fd ∉ s.stack := fun hin => hused ((h.free fd).mp hin).2
  have hstack : ({ s with
      socks := Function.update s.socks fd none
      unused := Function.update s.unused (gridMaxSockets - s.nsocks) fd
      nsocks := s.nsocks - 1 } : SocketTable).stack = s.stack ++ [fd] := by
    have hfew := h.few
    have hsucc : gridMaxSockets - (s.nsocks - 1) = gridMaxSockets - s.nsocks + 1 := by omega
    simp only [stack, hsucc, List.range_succ, List.map_append, List.map_singleton,
      Function.update_self]
    congr 1
    refine List.map_congr_left ?_
    intro i hi
    rw [List.mem_range] at hi
    exact Function.update_of_ne (by omega) _ _
  refine ⟨?_, ?_, ?_, by have := h.few; simp only; omega⟩
  · rw [hstack, List.nodup_append]
    refine ⟨h.nodup, List.nodup_singleton fd, ?_⟩
    intro a ha b hb hab
    obtain rfl := List.mem_singleton.mp hb
    exact hnotin (hab ▸ ha)
  · intro a
    rw [hstack, List.mem_append, List.mem_singleton, h.free]
    simp only [Function.update_apply]
    by_cases ha : a = fd
    · simp [ha, hlt]
    · simp [ha]
  · intro a ha
    simp only [Function.update_apply] at ha
    split at ha
    · exact absurd rfl ha
    · exact h.range a ha

end SocketTable

end GridMq.Core
