import GridMq.Library.Transition
import Mathlib.Data.List.Basic
import Mathlib.Logic.Function.Basic

set_option autoImplicit false

/-!
# The poller on top of `epoll` (`src/aio/poller_epoll.inc`)

`epoll_wait` brings a batch of events that are reported one after the other.  Handles may be removed
and may stop polling in between; what the batch has left for them is then invalidated.
-/

namespace GridMq.Aio

open GridMq.Library

variable {α : Type} [DecidableEq α]

def epollIn : UInt32 := 0x001
def epollOut : UInt32 := 0x004
def epollErr : UInt32 := 0x008
def epollHup : UInt32 := 0x010

/-- `struct epoll_event`, with a handle as its data. -/
structure EpollEvent (α : Type) where
  hndl : α
  events : UInt32
  deriving DecidableEq, Repr

/-- The events that are reported: `GRID_POLLER_IN`, `GRID_POLLER_OUT` and `GRID_POLLER_ERR`. -/
inductive PollerEvent where
  | pollerIn
  | pollerOut
  | pollerErr
  deriving DecidableEq, Repr

/-- `struct grid_poller`, with what the handles poll for, and the pollset in the kernel.  `nevents`
is the length of `events`. -/
structure Poller (α : Type) where
  polled : α → UInt32 := fun _ => 0
  pollset : α → Option UInt32 := fun _ => none
  events : List (EpollEvent α) := []
  index : Nat := 0

namespace Poller

/-! ## The operations -/

/-- `EPOLL_CTL_MOD`. -/
def modify (self : Poller α) (hndl : α) (events : UInt32) : Poller α :=
  { self with
    polled := Function.update self.polled hndl events
    pollset :=
      Function.update self.pollset hndl ((self.pollset hndl).map fun _ => events) }

/-- The events of a handle that have not been reported yet are changed. -/
def invalidate (self : Poller α) (hndl : α) (change : UInt32 → UInt32) : Poller α :=
  { self with
    events := self.events.take self.index ++ (self.events.drop self.index).map fun e =>
      if e.hndl = hndl then { e with events := change e.events } else e }

/-- `grid_poller_add`. -/
def add (self : Poller α) (hndl : α) : Poller α :=
  { self with
    polled := Function.update self.polled hndl 0
    pollset := Function.update self.pollset hndl (some 0) }

/-- `grid_poller_rm`. -/
def rm (self : Poller α) (hndl : α) : Poller α :=
  ({ self with pollset := Function.update self.pollset hndl none } : Poller α).invalidate hndl
    fun _ => 0

/-- `grid_poller_set_in`, `grid_poller_set_out`. -/
def set (self : Poller α) (bit : UInt32) (hndl : α) : Poller α :=
  if self.polled hndl &&& bit ≠ 0 then self
  else self.modify hndl (self.polled hndl ||| bit)

/-- `grid_poller_reset_in`, `grid_poller_reset_out`. -/
def reset (self : Poller α) (bit : UInt32) (hndl : α) : Poller α :=
  if self.polled hndl &&& bit = 0 then self
  else
    (self.modify hndl (self.polled hndl &&& ~~~bit)).invalidate hndl fun events => events &&& ~~~bit

def setIn (self : Poller α) (hndl : α) : Poller α := self.set epollIn hndl
def resetIn (self : Poller α) (hndl : α) : Poller α := self.reset epollIn hndl
def setOut (self : Poller α) (hndl : α) : Poller α := self.set epollOut hndl
def resetOut (self : Poller α) (hndl : α) : Poller α := self.reset epollOut hndl

/-- `grid_poller_wait`, when `epoll_wait` brings a batch. -/
def wait (self : Poller α) (batch : List (EpollEvent α)) : Poller α :=
  { self with events := batch, index := 0 }

/-- Empty events are skipped. -/
def skip : List (EpollEvent α) → Nat → Nat
  | [], index => index
  | e :: rest, index => if e.events ≠ 0 then index else skip rest (index + 1)

/-- `grid_poller_event`. -/
def event (self : Poller α) : Poller α × Option (PollerEvent × α) :=
  let index := skip (self.events.drop self.index) self.index
  match self.events[index]? with
  | none => ({ self with index := index }, none)
  | some e =>
      if e.events &&& epollIn ≠ 0 then
        ({ self with
            index := index
            events := self.events.set index { e with events := e.events &&& ~~~epollIn } },
          some (.pollerIn, e.hndl))
      else if e.events &&& epollOut ≠ 0 then
        ({ self with
            index := index
            events := self.events.set index { e with events := e.events &&& ~~~epollOut } },
          some (.pollerOut, e.hndl))
      else ({ self with index := index + 1 }, some (.pollerErr, e.hndl))

end Poller

/-! ## Its runs -/

/-- A call, with what it returned. -/
inductive PollerCall (α : Type) where
  | add (hndl : α)
  | rm (hndl : α)
  | setIn (hndl : α)
  | resetIn (hndl : α)
  | setOut (hndl : α)
  | resetOut (hndl : α)
  | wait (batch : List (EpollEvent α))
  | event (r : Option (PollerEvent × α))
  deriving DecidableEq, Repr

/-- `epoll_wait` reports handles in the pollset, and what was asked for; errors without being
asked. -/
def Poller.Brings (self : Poller α) (e : EpollEvent α) : Prop :=
  ∃ events, self.pollset e.hndl = some events ∧
    e.events &&& ~~~(events ||| epollErr ||| epollHup) = 0

/-- A handle is added when it is not in the pollset. -/
def Poller.Step (self : Poller α) : PollerCall α → Poller α → Prop
  | .add hndl, self' => self.pollset hndl = none ∧ self' = self.add hndl
  | .rm hndl, self' => self' = self.rm hndl
  | .setIn hndl, self' => self' = self.setIn hndl
  | .resetIn hndl, self' => self' = self.resetIn hndl
  | .setOut hndl, self' => self' = self.setOut hndl
  | .resetOut hndl, self' => self' = self.resetOut hndl
  | .wait batch, self' => (∀ e ∈ batch, self.Brings e) ∧ self' = self.wait batch
  | .event r, self' => self.event = (self', r)

/-- A poller that is used, from its initialisation on. -/
def poller (α : Type) [DecidableEq α] : System (Poller α) (PollerCall α) where
  init self := self = {}
  step := Poller.Step

/-! ## What it is for -/

/-- Something that is to be reported of an event of the batch. -/
structure Report (α : Type) where
  entry : Nat
  hndl : α
  kind : PollerEvent
  deriving DecidableEq, Repr

/-- What is reported of one event: `IN`, then `OUT`, then an error for any other bit. -/
def reportsOf (entry : Nat) (e : EpollEvent α) : List (Report α) :=
  (if e.events &&& epollIn ≠ 0 then [⟨entry, e.hndl, .pollerIn⟩] else []) ++
    ((if e.events &&& epollOut ≠ 0 then [⟨entry, e.hndl, .pollerOut⟩] else []) ++
      if e.events &&& ~~~epollIn &&& ~~~epollOut ≠ 0 then [⟨entry, e.hndl, .pollerErr⟩] else [])

/-- What is reported of some events, numbered from the first one on. -/
def reports : Nat → List (EpollEvent α) → List (Report α)
  | _, [] => []
  | entry, e :: rest => reportsOf entry e ++ reports (entry + 1) rest

/-- What the batch has left. -/
def Poller.pending (self : Poller α) : List (Report α) :=
  reports self.index (self.events.drop self.index)

/-- The calls after which something is not reported any more. -/
def PollerCall.Scrubs (l : PollerCall α) (r : Report α) : Prop :=
  l = .rm r.hndl ∨ l = .resetIn r.hndl ∧ r.kind = .pollerIn ∨
    l = .resetOut r.hndl ∧ r.kind = .pollerOut

/-- Is it a wait for the next batch? -/
def PollerCall.IsWait : PollerCall α → Prop
  | .wait _ => True
  | _ => False

/-- What a call reported. -/
def PollerCall.reported : PollerCall α → Option (PollerEvent × α)
  | .event r => r
  | _ => none

instance (l : PollerCall α) (r : Report α) : Decidable (l.Scrubs r) :=
  inferInstanceAs (Decidable (_ ∨ _))

/-! ## Bits -/

section

variable {a b m n : UInt32}

theorem and_or_right (a m n : UInt32) : a &&& (m ||| n) = a &&& m ||| a &&& n := by
  rw [← UInt32.toBitVec_inj]
  exact BitVec.and_or_distrib_left

theorem and_not_of_and_eq_zero (h : b &&& m = 0) : b &&& ~~~m = b := by
  have hall : b &&& (m ||| ~~~m) = b := by
    rw [UInt32.or_not_self, UInt32.and_neg_one]
  rwa [and_or_right, h, UInt32.zero_or] at hall

theorem and_of_and_not_eq_zero (h : b &&& ~~~m = 0) : b &&& m = b := by
  have hall : b &&& (m ||| ~~~m) = b := by
    rw [UInt32.or_not_self, UInt32.and_neg_one]
  rwa [and_or_right, h, UInt32.or_zero] at hall

/-- Bits that were cleared are not there. -/
theorem and_not_and_self (b m : UInt32) : b &&& ~~~m &&& m = 0 := by
  rw [UInt32.and_assoc, UInt32.not_and_self, UInt32.and_zero]

theorem in_cleared (b : UInt32) : b &&& ~~~epollIn &&& epollOut = b &&& epollOut := by
  rw [UInt32.and_assoc]
  rfl

theorem out_cleared (b : UInt32) : b &&& ~~~epollOut &&& epollIn = b &&& epollIn := by
  rw [UInt32.and_assoc]
  rfl

theorem cleared {bit bit' : UInt32} (hbit : bit = epollIn ∨ bit = epollOut)
    (hbit' : bit' = epollIn ∨ bit' = epollOut) (hne : bit' ≠ bit) :
    b &&& ~~~bit &&& bit' = b &&& bit' := by
  rcases hbit with rfl | rfl
  · obtain rfl := hbit'.resolve_left hne
    exact in_cleared b
  · obtain rfl := hbit'.resolve_right hne
    exact out_cleared b

theorem not_in_cleared (b : UInt32) :
    b &&& ~~~epollIn &&& ~~~epollIn &&& ~~~epollOut = b &&& ~~~epollIn &&& ~~~epollOut := by
  rw [UInt32.and_assoc b, UInt32.and_self]

theorem not_out_cleared (b : UInt32) :
    b &&& ~~~epollOut &&& ~~~epollIn &&& ~~~epollOut = b &&& ~~~epollIn &&& ~~~epollOut := by
  rw [UInt32.and_assoc b, UInt32.and_comm (~~~epollOut), ← UInt32.and_assoc b, UInt32.and_assoc,
    UInt32.and_self]

/-- Without some bits there are none of fewer bits. -/
theorem and_and_eq_zero (h : b &&& n = 0) (m : UInt32) : b &&& m &&& n = 0 := by
  rw [UInt32.and_assoc, UInt32.and_comm m, ← UInt32.and_assoc, h, UInt32.zero_and]

end

/-! ## Reports -/

variable {i : Nat} {e : EpollEvent α} {self self' : Poller α} {l : PollerCall α} {r : Report α}

omit [DecidableEq α] in
theorem reportsOf_zero (h : e.events = 0) : reportsOf i e = [] := by
  simp [reportsOf, h]

omit [DecidableEq α] in
theorem reportsOf_in (h : e.events &&& epollIn ≠ 0) :
    reportsOf i e = ⟨i, e.hndl, .pollerIn⟩ ::
      reportsOf i { e with events := e.events &&& ~~~epollIn } := by
  rw [reportsOf, reportsOf, if_pos h, and_not_and_self, in_cleared, not_in_cleared]
  rfl

omit [DecidableEq α] in
theorem reportsOf_out (hin : e.events &&& epollIn = 0) (h : e.events &&& epollOut ≠ 0) :
    reportsOf i e = ⟨i, e.hndl, .pollerOut⟩ ::
      reportsOf i { e with events := e.events &&& ~~~epollOut } := by
  rw [reportsOf, reportsOf, if_pos h, out_cleared, hin, and_not_and_self, not_out_cleared]
  rfl

omit [DecidableEq α] in
theorem reportsOf_err (hin : e.events &&& epollIn = 0) (hout : e.events &&& epollOut = 0)
    (h : e.events ≠ 0) : reportsOf i e = [⟨i, e.hndl, .pollerErr⟩] := by
  rw [reportsOf, and_not_of_and_eq_zero hin, and_not_of_and_eq_zero hout, hin, hout, if_pos h]
  rfl

omit [DecidableEq α] in
theorem mem_reportsOf (h : r ∈ reportsOf i e) : r.entry = i ∧ r.hndl = e.hndl := by
  rw [reportsOf, List.mem_append, List.mem_append] at h
  rcases h with h | h | h
  all_goals
    split at h
    · rw [List.mem_singleton.mp h]
      exact ⟨rfl, rfl⟩
    · exact absurd h List.not_mem_nil

omit [DecidableEq α] in
/-- Without `IN`. -/
theorem reportsOf_clear_in (e : EpollEvent α) :
    reportsOf i { e with events := e.events &&& ~~~epollIn } =
      (reportsOf i e).filter fun r => r.kind ≠ .pollerIn := by
  rw [reportsOf, reportsOf]
  simp only [and_not_and_self, in_cleared, not_in_cleared, List.filter_append]
  congr 1
  · rw [if_neg fun h => h rfl]
    split <;> rfl
  · congr 1
    · split <;> rfl
    · split <;> rfl

omit [DecidableEq α] in
/-- Without `OUT`. -/
theorem reportsOf_clear_out (e : EpollEvent α) :
    reportsOf i { e with events := e.events &&& ~~~epollOut } =
      (reportsOf i e).filter fun r => r.kind ≠ .pollerOut := by
  rw [reportsOf, reportsOf]
  simp only [and_not_and_self, out_cleared, not_out_cleared, List.filter_append]
  congr 1
  · split <;> rfl
  · congr 1
    · rw [if_neg fun h => h rfl]
      split <;> rfl
    · split <;> rfl

/-- A change of a handle's events takes some of its reports away. -/
theorem reports_map (hndl : α) (change : UInt32 → UInt32) (keep : Report α → Bool)
    (hchange : ∀ i (e : EpollEvent α), e.hndl = hndl →
      reportsOf i { e with events := change e.events } = (reportsOf i e).filter keep)
    (hother : ∀ r, r.hndl ≠ hndl → keep r = true) (events : List (EpollEvent α)) (i : Nat) :
    reports i (events.map fun e =>
        if e.hndl = hndl then { e with events := change e.events } else e) =
      (reports i events).filter keep := by
  induction events generalizing i with
  | nil => rfl
  | cons e rest ih =>
      rw [List.map_cons, reports, reports, List.filter_append, ih]
      refine congrArg (· ++ _) ?_
      by_cases h : e.hndl = hndl
      · rw [if_pos h, hchange i e h]
      · rw [if_neg h, List.filter_eq_self.mpr]
        intro r hr
        exact hother r ((mem_reportsOf hr).2 ▸ h)

theorem drop_take_append {β : Type} (xs ys : List β) (n : Nat) (h : xs.drop n = [] → ys = []) :
    (xs.take n ++ ys).drop n = ys := by
  by_cases hn : n ≤ xs.length
  · exact List.drop_left' (by rw [List.length_take, Nat.min_eq_left hn])
  · have hnil : xs.drop n = [] := List.drop_of_length_le (by omega)
    rw [h hnil, List.append_nil, List.drop_take_self]

/-- What is left after events were invalidated. -/
theorem drop_invalidate (self : Poller α) (hndl : α) (change : UInt32 → UInt32) :
    (self.invalidate hndl change).events.drop self.index =
      (self.events.drop self.index).map fun e =>
        if e.hndl = hndl then { e with events := change e.events } else e := by
  refine drop_take_append _ _ _ fun h => ?_
  rw [h, List.map_nil]

omit [DecidableEq α] in
/-- Empty events have nothing to report. -/
theorem skip_spec (rest : List (EpollEvent α)) (index : Nat) :
    ∃ k, Poller.skip rest index = index + k ∧ reports index rest = reports (index + k) (rest.drop k) ∧
      ∀ e, rest[k]? = some e → e.events ≠ 0 := by
  induction rest generalizing index with
  | nil => exact ⟨0, rfl, rfl, by simp⟩
  | cons e rest ih =>
      by_cases hempty : e.events = 0
      · obtain ⟨k, hskip, hreports, hnext⟩ := ih (index + 1)
        refine ⟨k + 1, ?_, ?_, ?_⟩
        · rw [Poller.skip, if_neg (by rw [hempty]; simp), hskip]
          omega
        · rw [reports, reportsOf_zero hempty, List.nil_append, hreports, List.drop_succ_cons,
            Nat.add_assoc, Nat.add_comm 1 k]
        · rw [List.getElem?_cons_succ]
          exact hnext
      · refine ⟨0, ?_, rfl, ?_⟩
        · rw [Poller.skip, if_pos hempty]
          rfl
        · rw [List.getElem?_cons_zero]
          rintro e' ⟨⟩
          exact hempty

omit [DecidableEq α] in
/-- A call that reports nothing finds the batch empty. -/
theorem event_none (h : self.event = (self', none)) : self.pending = [] ∧ self'.pending = [] := by
  obtain ⟨k, hskip, hreports, hnext⟩ := skip_spec (self.events.drop self.index) self.index
  rw [Poller.event, hskip] at h
  cases hget : self.events[self.index + k]? with
  | some e =>
      rw [hget] at h
      simp only at h
      split at h
      · exact absurd (Prod.mk.inj h).2 (by simp)
      · split at h
        · exact absurd (Prod.mk.inj h).2 (by simp)
        · exact absurd (Prod.mk.inj h).2 (by simp)
  | none =>
      rw [hget] at h
      obtain ⟨rfl, -⟩ := Prod.mk.inj h
      have hnil : self.events.drop (self.index + k) = [] :=
        List.drop_of_length_le (List.getElem?_eq_none_iff.mp hget)
      refine ⟨?_, ?_⟩
      · rw [Poller.pending, hreports, List.drop_drop, hnil]
        rfl
      · rw [Poller.pending]
        simp only
        rw [hnil]
        rfl

omit [DecidableEq α] in
/-- A call that reports something takes the first thing that is left. -/
theorem event_some {kind : PollerEvent} {hndl : α} (h : self.event = (self', some (kind, hndl))) :
    ∃ entry, self.pending = ⟨entry, hndl, kind⟩ :: self'.pending := by
  obtain ⟨k, hskip, hreports, hnext⟩ := skip_spec (self.events.drop self.index) self.index
  rw [Poller.event, hskip] at h
  cases hget : self.events[self.index + k]? with
  | none =>
      rw [hget] at h
      exact absurd (Prod.mk.inj h).2 (by simp)
  | some e =>
      rw [hget] at h
      simp only at h
      have hne : e.events ≠ 0 := hnext e (by rw [List.getElem?_drop]; exact hget)
      obtain ⟨hlt, hat⟩ := List.getElem?_eq_some_iff.mp hget
      have hdrop : self.events.drop (self.index + k) =
          e :: self.events.drop (self.index + k + 1) := by
        rw [List.drop_eq_getElem_cons hlt, hat]
      have hset : ∀ e', (self.events.set (self.index + k) e').drop (self.index + k) =
          e' :: self.events.drop (self.index + k + 1) := by
        intro e'
        rw [List.drop_set, if_neg (Nat.lt_irrefl _), Nat.sub_self, hdrop]
        rfl
      refine ⟨self.index + k, ?_⟩
      rw [Poller.pending, hreports, List.drop_drop, hdrop, reports]
      split at h
      · rename_i hin
        obtain ⟨rfl, hr⟩ := Prod.mk.inj h
        obtain ⟨rfl, rfl⟩ := Prod.mk.inj (Option.some.inj hr)
        rw [Poller.pending, hset, reports, reportsOf_in hin, List.cons_append]
      · rename_i hin
        have hin := Classical.not_not.mp hin
        split at h
        · rename_i hout
          obtain ⟨rfl, hr⟩ := Prod.mk.inj h
          obtain ⟨rfl, rfl⟩ := Prod.mk.inj (Option.some.inj hr)
          rw [Poller.pending, hset, reports, reportsOf_out hin hout, List.cons_append]
        · rename_i hout
          obtain ⟨rfl, hr⟩ := Prod.mk.inj h
          obtain ⟨rfl, rfl⟩ := Prod.mk.inj (Option.some.inj hr)
          rw [reportsOf_err hin (Classical.not_not.mp hout) hne]
          rfl

/-! ## What handles poll for -/

/-- The handles poll for what the kernel was told, and what is left of the batch is of handles in
the pollset, and was asked for. -/
structure Inv (s : Poller α) : Prop where
  kernel : ∀ hndl events, s.pollset hndl = some events → s.polled hndl = events
  present : ∀ e ∈ s.events.drop s.index, e.events ≠ 0 → s.pollset e.hndl ≠ none
  asked : ∀ e ∈ s.events.drop s.index, ∀ bit, bit = epollIn ∨ bit = epollOut →
    e.events &&& bit ≠ 0 → s.polled e.hndl &&& bit ≠ 0

omit [DecidableEq α] in
theorem inv_start : Inv ({} : Poller α) where
  kernel _ _ h := absurd h (by simp)
  present _ he := absurd he List.not_mem_nil
  asked _ he := absurd he List.not_mem_nil

omit [DecidableEq α] in
/-- A batch with fewer bits. -/
theorem Inv.fewer (hinv : Inv self) (hpolled : self'.polled = self.polled)
    (hpollset : self'.pollset = self.pollset)
    (hless : ∀ e' ∈ self'.events.drop self'.index, ∃ e ∈ self.events.drop self.index,
      e'.hndl = e.hndl ∧ ∃ m, e'.events = e.events &&& m) : Inv self' where
  kernel := by
    rw [hpolled, hpollset]
    exact hinv.kernel
  present e' he' hne := by
    obtain ⟨e, he, heq, m, hm⟩ := hless e' he'
    rw [hpollset, heq]
    refine hinv.present e he fun hzero => hne ?_
    rw [hm, hzero, UInt32.zero_and]
  asked e' he' bit hbit hne := by
    obtain ⟨e, he, heq, m, hm⟩ := hless e' he'
    rw [hpolled, heq]
    refine hinv.asked e he bit hbit fun hzero => hne ?_
    rw [hm]
    exact and_and_eq_zero hzero m

omit [DecidableEq α] in
theorem Inv.event (hinv : Inv self) : Inv self.event.1 := by
  obtain ⟨k, hskip, -, -⟩ := skip_spec (self.events.drop self.index) self.index
  have hold : ∀ n, ∀ e ∈ self.events.drop (self.index + n), e ∈ self.events.drop self.index := by
    intro n e he
    rw [← List.drop_drop] at he
    exact List.mem_of_mem_drop he
  have hsame : ∀ e : EpollEvent α, ∃ m, e.events = e.events &&& m := fun e =>
    ⟨-1, UInt32.and_neg_one.symm⟩
  have hset : ∀ e m, self.events[self.index + k]? = some e →
      ∀ e' ∈ (self.events.set (self.index + k) { e with events := e.events &&& m }).drop
        (self.index + k), ∃ e ∈ self.events.drop self.index,
          e'.hndl = e.hndl ∧ ∃ m, e'.events = e.events &&& m := by
    intro e m hget e' he'
    rw [List.drop_set, if_neg (Nat.lt_irrefl _)] at he'
    rcases List.mem_or_eq_of_mem_set he' with hmem | rfl
    · exact ⟨e', hold k e' hmem, rfl, hsame e'⟩
    · refine ⟨e, hold k e ?_, rfl, m, rfl⟩
      refine List.mem_of_getElem? (i := 0) ?_
      rw [List.getElem?_drop]
      exact hget
  rw [Poller.event, hskip]
  cases hget : self.events[self.index + k]? with
  | none => exact hinv.fewer rfl rfl fun e he => ⟨e, hold k e he, rfl, hsame e⟩
  | some e =>
      simp only
      split
      · exact hinv.fewer rfl rfl (hset e _ hget)
      · split
        · exact hinv.fewer rfl rfl (hset e _ hget)
        · exact hinv.fewer rfl rfl fun e he => ⟨e, hold (k + 1) e he, rfl, hsame e⟩

/-- What is left after events were invalidated. -/
theorem mem_drop_invalidate {hndl : α} {change : UInt32 → UInt32} {e' : EpollEvent α}
    (h : e' ∈ (self.invalidate hndl change).events.drop (self.invalidate hndl change).index) :
    ∃ e ∈ self.events.drop self.index, e'.hndl = e.hndl ∧
      (e.hndl = hndl ∧ e'.events = change e.events ∨ e.hndl ≠ hndl ∧ e' = e) := by
  change e' ∈ (self.invalidate hndl change).events.drop self.index at h
  rw [drop_invalidate] at h
  obtain ⟨e, he, rfl⟩ := List.mem_map.mp h
  refine ⟨e, he, ?_⟩
  split
  · rename_i heq
    exact ⟨rfl, Or.inl ⟨heq, rfl⟩⟩
  · rename_i hne
    exact ⟨rfl, Or.inr ⟨hne, rfl⟩⟩

theorem pollset_rm (self : Poller α) (hndl : α) :
    (self.rm hndl).pollset = Function.update self.pollset hndl none := rfl

theorem Inv.rm (hinv : Inv self) (hndl : α) : Inv (self.rm hndl) where
  kernel h events hevents := by
    rw [pollset_rm] at hevents
    by_cases heq : h = hndl
    · rw [heq, Function.update_self] at hevents
      exact absurd hevents (by simp)
    · rw [Function.update_of_ne heq] at hevents
      exact hinv.kernel h events hevents
  present e' he' hne := by
    obtain ⟨e, he, hhndl, ⟨-, hzero⟩ | ⟨hother, rfl⟩⟩ := mem_drop_invalidate he'
    · exact absurd hzero hne
    · rw [pollset_rm, Function.update_of_ne hother]
      exact hinv.present _ he hne
  asked e' he' bit hbit hne := by
    obtain ⟨e, he, hhndl, ⟨-, hzero⟩ | ⟨hother, rfl⟩⟩ := mem_drop_invalidate he'
    · rw [hzero, UInt32.zero_and] at hne
      exact absurd rfl hne
    · exact hinv.asked _ he bit hbit hne

theorem pollset_modify (self : Poller α) (hndl : α) (events : UInt32) :
    (self.modify hndl events).pollset =
      Function.update self.pollset hndl ((self.pollset hndl).map fun _ => events) := rfl

theorem polled_modify (self : Poller α) (hndl : α) (events : UInt32) :
    (self.modify hndl events).polled = Function.update self.polled hndl events := rfl

/-- The kernel is told what the handle polls for. -/
theorem Inv.modify (hinv : Inv self) {hndl : α} {events : UInt32}
    (hless : ∀ e ∈ self.events.drop self.index, e.hndl = hndl → ∀ bit,
      bit = epollIn ∨ bit = epollOut → e.events &&& bit ≠ 0 → events &&& bit ≠ 0) :
    Inv (self.modify hndl events) where
  kernel h ev hev := by
    rw [pollset_modify] at hev
    rw [polled_modify]
    by_cases heq : h = hndl
    · rw [heq, Function.update_self] at hev ⊢
      obtain ⟨-, -, hsame⟩ := Option.map_eq_some_iff.mp hev
      exact hsame
    · rw [Function.update_of_ne heq] at hev ⊢
      exact hinv.kernel h ev hev
  present e he hne := by
    have hpresent := hinv.present e he hne
    rw [pollset_modify]
    by_cases heq : e.hndl = hndl
    · rw [heq] at hpresent ⊢
      rw [Function.update_self]
      simpa using hpresent
    · rw [Function.update_of_ne heq]
      exact hpresent
  asked e he bit hbit hne := by
    rw [polled_modify]
    by_cases heq : e.hndl = hndl
    · rw [heq, Function.update_self]
      exact hless e he heq bit hbit hne
    · rw [Function.update_of_ne heq]
      exact hinv.asked e he bit hbit hne

theorem Inv.set (hinv : Inv self) (bit : UInt32) (hndl : α) : Inv (self.set bit hndl) := by
  rw [Poller.set]
  split
  · exact hinv
  · refine hinv.modify fun e he heq bit' hbit hne hzero => ?_
    refine hinv.asked e he bit' hbit hne ?_
    rw [heq]
    rw [UInt32.and_comm, and_or_right, UInt32.and_comm bit'] at hzero
    exact (UInt32.or_eq_zero_iff.mp hzero).1

/-- After a handle has stopped to poll for something, nothing of it is left. -/
theorem Inv.reset (hinv : Inv self) {bit : UInt32} (hbit : bit = epollIn ∨ bit = epollOut)
    (hndl : α) : Inv (self.reset bit hndl) := by
  rw [Poller.reset]
  split
  · exact hinv
  · have hless : Inv (self.invalidate hndl fun events => events &&& ~~~bit) := by
      refine hinv.fewer rfl rfl fun e' he' => ?_
      obtain ⟨e, he, hhndl, ⟨-, hcleared⟩ | ⟨-, rfl⟩⟩ := mem_drop_invalidate he'
      · exact ⟨e, he, hhndl, ~~~bit, hcleared⟩
      · exact ⟨_, he, rfl, -1, UInt32.and_neg_one.symm⟩
    refine hless.modify fun e' he' heq bit' hbit' hne => ?_
    have hasked := hless.asked e' he' bit' hbit' hne
    obtain ⟨e, he, hhndl, ⟨-, hcleared⟩ | ⟨hother, rfl⟩⟩ := mem_drop_invalidate he'
    · have hdifferent : bit' ≠ bit := by
        rintro rfl
        rw [hcleared, and_not_and_self] at hne
        exact hne rfl
      rw [heq] at hasked
      rw [cleared hbit hbit' hdifferent]
      exact hasked
    · exact absurd heq hother

theorem pollset_add (self : Poller α) (hndl : α) :
    (self.add hndl).pollset = Function.update self.pollset hndl (some 0) := rfl

theorem polled_add (self : Poller α) (hndl : α) :
    (self.add hndl).polled = Function.update self.polled hndl 0 := rfl

theorem Inv.add (hinv : Inv self) {hndl : α} (hnew : self.pollset hndl = none) :
    Inv (self.add hndl) where
  kernel h events hevents := by
    rw [pollset_add] at hevents
    rw [polled_add]
    by_cases heq : h = hndl
    · rw [heq, Function.update_self] at hevents ⊢
      exact Option.some.inj hevents
    · rw [Function.update_of_ne heq] at hevents ⊢
      exact hinv.kernel h events hevents
  present e he hne := by
    have hpresent := hinv.present e he hne
    have heq : e.hndl ≠ hndl := fun heq => hpresent (heq ▸ hnew)
    rwa [pollset_add, Function.update_of_ne heq]
  asked e he bit hbit hne := by
    have heq : e.hndl ≠ hndl := by
      intro heq
      refine hinv.present e he (fun hzero => hne ?_) (heq ▸ hnew)
      rw [hzero, UInt32.zero_and]
    rw [polled_add, Function.update_of_ne heq]
    exact hinv.asked e he bit hbit hne

omit [DecidableEq α] in
theorem Inv.wait (hinv : Inv self) {batch : List (EpollEvent α)}
    (hbrings : ∀ e ∈ batch, self.Brings e) : Inv (self.wait batch) where
  kernel := hinv.kernel
  present e he _ := by
    obtain ⟨events, hevents, -⟩ := hbrings e he
    rw [Poller.wait, hevents]
    exact Option.some_ne_none events
  asked e he bit hbit hne hzero := by
    obtain ⟨events, hevents, honly⟩ := hbrings e he
    have hpolled : self.polled e.hndl = events := hinv.kernel _ _ hevents
    rw [Poller.wait, hpolled] at hzero
    have herr : epollErr &&& bit = 0 ∧ epollHup &&& bit = 0 := by
      rcases hbit with rfl | rfl <;> exact ⟨rfl, rfl⟩
    have hnone : bit &&& (events ||| epollErr ||| epollHup) = 0 := by
      rw [and_or_right, and_or_right, UInt32.and_comm bit, UInt32.and_comm bit,
        UInt32.and_comm bit, hzero, herr.1, herr.2]
      rfl
    refine hne ?_
    rw [← and_of_and_not_eq_zero honly, UInt32.and_assoc, UInt32.and_comm _ bit, hnone,
      UInt32.and_zero]

theorem Inv.step (hinv : Inv self) (hstep : self.Step l self') : Inv self' := by
  cases l with
  | add hndl =>
      obtain ⟨hnew, rfl⟩ := hstep
      exact hinv.add hnew
  | rm hndl =>
      obtain rfl := hstep
      exact hinv.rm hndl
  | setIn hndl =>
      obtain rfl := hstep
      exact hinv.set epollIn hndl
  | resetIn hndl =>
      obtain rfl := hstep
      exact hinv.reset (Or.inl rfl) hndl
  | setOut hndl =>
      obtain rfl := hstep
      exact hinv.set epollOut hndl
  | resetOut hndl =>
      obtain rfl := hstep
      exact hinv.reset (Or.inr rfl) hndl
  | wait batch =>
      obtain ⟨hbrings, rfl⟩ := hstep
      exact hinv.wait hbrings
  | event r =>
      have hself : self.event.1 = self' := congrArg Prod.fst hstep
      rw [← hself]
      exact hinv.event

theorem inv_reachable (hself : (poller α).Reachable self) : Inv self := by
  refine hself.invariant ?_ fun s l s' _ hinv hstep => hinv.step hstep
  rintro s rfl
  exact inv_start

/-! ## What a call does to the batch -/

omit [DecidableEq α] in
theorem mem_reports {events : List (EpollEvent α)} (h : r ∈ reports i events) :
    ∃ e ∈ events, r.hndl = e.hndl ∧ (r.kind = .pollerIn → e.events &&& epollIn ≠ 0) ∧
      (r.kind = .pollerOut → e.events &&& epollOut ≠ 0) := by
  induction events generalizing i with
  | nil => exact absurd h List.not_mem_nil
  | cons e rest ih =>
      rw [reports, List.mem_append] at h
      rcases h with h | h
      · refine ⟨e, List.mem_cons_self, (mem_reportsOf h).2, ?_, ?_⟩
        · rintro hkind hzero
          rw [reportsOf, hzero] at h
          simp only [ne_eq, not_true_eq_false, if_false, List.nil_append, List.mem_append] at h
          rcases h with h | h
          all_goals
            split at h
            · rw [List.mem_singleton.mp h] at hkind
              exact absurd hkind (by simp)
            · exact absurd h List.not_mem_nil
        · rintro hkind hzero
          rw [reportsOf, hzero] at h
          simp only [ne_eq, not_true_eq_false, if_false, List.nil_append, List.mem_append] at h
          rcases h with h | h
          all_goals
            split at h
            · rw [List.mem_singleton.mp h] at hkind
              exact absurd hkind (by simp)
            · exact absurd h List.not_mem_nil
      · obtain ⟨e', he', hrest⟩ := ih h
        exact ⟨e', List.mem_cons_of_mem e he', hrest⟩

omit [DecidableEq α] in
/-- Nothing is left of a handle that does not poll for it. -/
theorem Inv.kind_ne (hinv : Inv self) (hr : r ∈ self.pending) :
    (self.polled r.hndl &&& epollIn = 0 → r.kind ≠ .pollerIn) ∧
      (self.polled r.hndl &&& epollOut = 0 → r.kind ≠ .pollerOut) := by
  obtain ⟨e, he, hhndl, hin, hout⟩ := mem_reports hr
  rw [hhndl]
  exact ⟨fun hzero hkind => hinv.asked e he epollIn (Or.inl rfl) (hin hkind) hzero,
    fun hzero hkind => hinv.asked e he epollOut (Or.inr rfl) (hout hkind) hzero⟩

/-- What is left after events were invalidated. -/
theorem pending_invalidate (self : Poller α) (hndl : α) (change : UInt32 → UInt32)
    (keep : Report α → Bool)
    (hchange : ∀ i (e : EpollEvent α), e.hndl = hndl →
      reportsOf i { e with events := change e.events } = (reportsOf i e).filter keep)
    (hother : ∀ r, r.hndl ≠ hndl → keep r = true) :
    (self.invalidate hndl change).pending = self.pending.filter keep := by
  change reports self.index ((self.invalidate hndl change).events.drop self.index) = _
  rw [drop_invalidate, reports_map hndl change keep hchange hother]
  rfl

theorem pending_rm (self : Poller α) (hndl : α) :
    (self.rm hndl).pending = self.pending.filter fun r => ¬(PollerCall.rm hndl).Scrubs r := by
  refine pending_invalidate _ hndl _ _ (fun i e he => ?_) fun r hr => ?_
  · rw [reportsOf_zero rfl, eq_comm, List.filter_eq_nil_iff]
    intro r hr
    have hsame : r.hndl = hndl := (mem_reportsOf hr).2.trans he
    simp [PollerCall.Scrubs, hsame]
  · simp [PollerCall.Scrubs, Ne.symm hr]

theorem pending_resetIn (hinv : Inv self) (hndl : α) :
    (self.resetIn hndl).pending =
      self.pending.filter fun r => ¬(PollerCall.resetIn hndl).Scrubs r := by
  rw [Poller.resetIn, Poller.reset]
  split
  · rename_i hzero
    rw [eq_comm, List.filter_eq_self]
    intro r hr
    rw [decide_eq_true_iff]
    rintro (h | ⟨h, hkind⟩ | ⟨h, -⟩)
    · exact absurd h (by simp)
    · injection h with h
      exact (hinv.kind_ne hr).1 (h ▸ hzero) hkind
    · exact absurd h (by simp)
  · refine pending_invalidate (self.modify hndl _) hndl _ _ (fun i e he => ?_) fun r hr => ?_
    · rw [reportsOf_clear_in]
      refine List.filter_congr fun r hr => ?_
      have hsame : r.hndl = hndl := (mem_reportsOf hr).2.trans he
      simp [PollerCall.Scrubs, hsame]
    · simp [PollerCall.Scrubs, Ne.symm hr]

theorem pending_resetOut (hinv : Inv self) (hndl : α) :
    (self.resetOut hndl).pending =
      self.pending.filter fun r => ¬(PollerCall.resetOut hndl).Scrubs r := by
  rw [Poller.resetOut, Poller.reset]
  split
  · rename_i hzero
    rw [eq_comm, List.filter_eq_self]
    intro r hr
    rw [decide_eq_true_iff]
    rintro (h | ⟨h, -⟩ | ⟨h, hkind⟩)
    · exact absurd h (by simp)
    · exact absurd h (by simp)
    · injection h with h
      exact (hinv.kind_ne hr).2 (h ▸ hzero) hkind
  · refine pending_invalidate (self.modify hndl _) hndl _ _ (fun i e he => ?_) fun r hr => ?_
    · rw [reportsOf_clear_out]
      refine List.filter_congr fun r hr => ?_
      have hsame : r.hndl = hndl := (mem_reportsOf hr).2.trans he
      simp [PollerCall.Scrubs, hsame]
    · simp [PollerCall.Scrubs, Ne.symm hr]

theorem pending_set (self : Poller α) (bit : UInt32) (hndl : α) :
    (self.set bit hndl).pending = self.pending := by
  rw [Poller.set]
  split <;> rfl

/-- A call reports the first thing that is left, or takes away what it scrubs. -/
theorem step_pending (hinv : Inv self) (hstep : self.Step l self') (hwait : ¬l.IsWait) :
    (∃ r, l.reported = some (r.kind, r.hndl) ∧ self.pending = r :: self'.pending) ∨
      l.reported = none ∧ self'.pending = self.pending.filter fun r => ¬l.Scrubs r := by
  have hnoscrub : (∀ r, ¬l.Scrubs r) → self.pending.filter (fun r => ¬l.Scrubs r) = self.pending :=
    fun h => List.filter_eq_self.mpr fun r _ => decide_eq_true (h r)
  cases l with
  | add hndl =>
      obtain ⟨-, rfl⟩ := hstep
      rw [hnoscrub (by simp [PollerCall.Scrubs])]
      exact Or.inr ⟨rfl, rfl⟩
  | rm hndl =>
      obtain rfl := hstep
      exact Or.inr ⟨rfl, pending_rm self hndl⟩
  | setIn hndl =>
      obtain rfl := hstep
      rw [hnoscrub (by simp [PollerCall.Scrubs])]
      exact Or.inr ⟨rfl, pending_set self epollIn hndl⟩
  | resetIn hndl =>
      obtain rfl := hstep
      exact Or.inr ⟨rfl, pending_resetIn hinv hndl⟩
  | setOut hndl =>
      obtain rfl := hstep
      rw [hnoscrub (by simp [PollerCall.Scrubs])]
      exact Or.inr ⟨rfl, pending_set self epollOut hndl⟩
  | resetOut hndl =>
      obtain rfl := hstep
      exact Or.inr ⟨rfl, pending_resetOut hinv hndl⟩
  | wait batch => exact absurd trivial hwait
  | event r =>
      rw [hnoscrub (by simp [PollerCall.Scrubs])]
      rcases r with - | ⟨kind, hndl⟩
      · obtain ⟨hbefore, hafter⟩ := event_none hstep
        exact Or.inr ⟨rfl, hafter.trans hbefore.symm⟩
      · obtain ⟨entry, hpending⟩ := event_some hstep
        exact Or.inl ⟨_, rfl, hpending⟩

/-! ## While a batch is consumed -/

/-- Everything that was left is reported once, in order, or it is scrubbed, or it is left still. -/
theorem path_reports {steps : List (Poller α × PollerCall α)}
    (hpath : (poller α).Path self steps self') (hinv : Inv self)
    (hwait : ∀ x ∈ steps, ¬x.2.IsWait) :
    ∃ done : List (Report α),
      done.map (fun r => (r.kind, r.hndl)) = steps.filterMap (fun x => x.2.reported) ∧
        (done ++ self'.pending).Sublist self.pending ∧
        ∀ r ∈ self.pending, r ∈ done ++ self'.pending ∨ ∃ x ∈ steps, x.2.Scrubs r := by
  induction hpath with
  | nil s => exact ⟨[], rfl, List.Sublist.refl _, fun r hr => Or.inl hr⟩
  | @cons s s' s'' l steps hstep hpath ih =>
      obtain ⟨done, hdone, hsub, hall⟩ := ih (hinv.step hstep) fun x hx =>
        hwait x (List.mem_cons_of_mem _ hx)
      rw [List.filterMap_cons]
      rcases step_pending hinv hstep (hwait _ List.mem_cons_self) with
        ⟨r, hreported, hpending⟩ | ⟨hnone, hpending⟩
      · rw [hreported]
        refine ⟨r :: done, ?_, ?_, ?_⟩
        · rw [List.map_cons, hdone]
        · rw [hpending]
          exact hsub.cons_cons r
        · intro x hx
          rw [hpending] at hx
          rcases List.mem_cons.mp hx with rfl | hx
          · exact Or.inl List.mem_cons_self
          · refine (hall x hx).imp (List.mem_cons_of_mem r) ?_
            rintro ⟨y, hy, hscrubs⟩
            exact ⟨y, List.mem_cons_of_mem _ hy, hscrubs⟩
      · rw [hnone]
        refine ⟨done, hdone, ?_, ?_⟩
        · rw [hpending] at hsub
          exact hsub.trans List.filter_sublist
        · intro r hr
          by_cases hscrubs : l.Scrubs r
          · exact Or.inr ⟨_, List.mem_cons_self, hscrubs⟩
          · have hkept : r ∈ s'.pending := by
              rw [hpending]
              exact List.mem_filter.mpr ⟨hr, decide_eq_true hscrubs⟩
            refine (hall r hkept).imp_right ?_
            rintro ⟨y, hy, hscrubs⟩
            exact ⟨y, List.mem_cons_of_mem _ hy, hscrubs⟩

/-- What was scrubbed is not reported until the next wait. -/
theorem path_scrubbed {s : Poller α} {steps : List (Poller α × PollerCall α)} (hinv : Inv self)
    (hstep : self.Step l s) (hreported : l.reported = none)
    (hwait : ∀ x ∈ (self, l) :: steps, ¬x.2.IsWait) (hpath : (poller α).Path s steps self')
    {x : Poller α × PollerCall α} (hx : x ∈ steps) {kind : PollerEvent} {hndl : α}
    (hevent : x.2 = .event (some (kind, hndl))) :
    ∃ r : Report α, r.kind = kind ∧ r.hndl = hndl ∧ ¬l.Scrubs r := by
  obtain ⟨done, hdone, hsub, -⟩ := path_reports hpath (hinv.step hstep) fun y hy =>
    hwait y (List.mem_cons_of_mem _ hy)
  have hmem : (kind, hndl) ∈ steps.filterMap fun x => x.2.reported :=
    List.mem_filterMap.mpr ⟨x, hx, by rw [hevent]; rfl⟩
  rw [← hdone] at hmem
  obtain ⟨r, hr, heq⟩ := List.mem_map.mp hmem
  obtain ⟨hkind, hhndl⟩ := Prod.mk.inj heq
  have hpending : r ∈ s.pending := hsub.subset (List.mem_append_left _ hr)
  rcases step_pending hinv hstep (hwait _ List.mem_cons_self) with ⟨r', hr', -⟩ | ⟨-, hkept⟩
  · rw [hreported] at hr'
    exact absurd hr' (by simp)
  · rw [hkept] at hpending
    exact ⟨r, hkind, hhndl, of_decide_eq_true (List.mem_filter.mp hpending).2⟩

omit [DecidableEq α] in
theorem reports_entry {events : List (EpollEvent α)} (h : r ∈ reports i events) : i ≤ r.entry := by
  induction events generalizing i with
  | nil => exact absurd h List.not_mem_nil
  | cons e rest ih =>
      rw [reports, List.mem_append] at h
      rcases h with h | h
      · exact Nat.le_of_eq (mem_reportsOf h).1.symm
      · exact Nat.le_of_succ_le (ih h)

omit [DecidableEq α] in
/-- No two reports of a batch are the same. -/
theorem reports_nodup (events : List (EpollEvent α)) (i : Nat) : (reports i events).Nodup := by
  induction events generalizing i with
  | nil => exact List.nodup_nil
  | cons e rest ih =>
      rw [reports, List.nodup_append]
      refine ⟨?_, ih (i + 1), ?_⟩
      · rw [reportsOf]
        split <;> split <;> split <;> simp
      · rintro r hr r' hr' rfl
        have hle := reports_entry hr'
        rw [(mem_reportsOf hr).1] at hle
        exact Nat.lt_irrefl i hle

/-- A batch is consumed as it should be: `steps` are the calls since the wait. -/
structure Consumed (batch : List (EpollEvent α)) (steps : List (Poller α × PollerCall α))
    (s : Poller α) : Prop where
  /-- nothing is reported of a handle that was removed -/
  removed : ∀ before t hndl after, steps = before ++ (t, .rm hndl) :: after →
    ∀ x ∈ after, ∀ kind, x.2 ≠ .event (some (kind, hndl))
  /-- no `IN` after a reset of it -/
  noIn : ∀ before t hndl after, steps = before ++ (t, .resetIn hndl) :: after →
    ∀ x ∈ after, x.2 ≠ .event (some (.pollerIn, hndl))
  /-- no `OUT` after a reset of it -/
  noOut : ∀ before t hndl after, steps = before ++ (t, .resetOut hndl) :: after →
    ∀ x ∈ after, x.2 ≠ .event (some (.pollerOut, hndl))
  /-- the reports of a batch are different -/
  distinct : (reports 0 batch).Nodup
  /-- what was reported, and what is left, are reports of the batch in their order; every other
  report was scrubbed by one of the calls -/
  once : ∃ done : List (Report α),
    done.map (fun r => (r.kind, r.hndl)) = steps.filterMap (fun x => x.2.reported) ∧
      (done ++ s.pending).Sublist (reports 0 batch) ∧
      ∀ r ∈ reports 0 batch, r ∈ done ++ s.pending ∨ ∃ x ∈ steps, x.2.Scrubs r
  /-- nothing is left when no event is returned -/
  empty : ∀ before t, steps = before ++ [(t, .event none)] → s.pending = []

/-- Between two waits, in every run. -/
theorem batch_consumed {s s₀ s' : Poller α} {batch : List (EpollEvent α)}
    {steps : List (Poller α × PollerCall α)} (hs : (poller α).Reachable s)
    (hbatch : (poller α).step s (.wait batch) s₀) (hpath : (poller α).Path s₀ steps s')
    (hwait : ∀ x ∈ steps, ¬x.2.IsWait) : Consumed batch steps s' := by
  have hinv := inv_reachable (hs.step hbatch)
  have hpending : s₀.pending = reports 0 batch := by
    obtain ⟨-, rfl⟩ := hbatch
    rfl
  have hcut : ∀ {before t l after}, steps = before ++ (t, l) :: after → ∃ s₁, Inv t ∧
      t.Step l s₁ ∧ (poller α).Path s₁ after s' ∧ ∀ x ∈ (t, l) :: after, ¬x.2.IsWait := by
    intro before t l after hsteps
    rw [hsteps] at hpath hwait
    obtain ⟨t', hbefore, hafter⟩ := hpath.split
    cases hafter with
    | cons hstep hafter =>
        exact ⟨_, inv_reachable ((hs.step hbatch).path hbefore), hstep, hafter, fun x hx =>
          hwait x (List.mem_append_right before hx)⟩
  refine ⟨?_, ?_, ?_, reports_nodup batch 0, ?_, ?_⟩
  · intro before t hndl after hsteps x hx kind hevent
    obtain ⟨s₁, hinv₁, hstep, hafter, hnone⟩ := hcut hsteps
    obtain ⟨r, -, rfl, hscrubs⟩ := path_scrubbed hinv₁ hstep rfl hnone hafter hx hevent
    exact hscrubs (Or.inl rfl)
  · intro before t hndl after hsteps x hx hevent
    obtain ⟨s₁, hinv₁, hstep, hafter, hnone⟩ := hcut hsteps
    obtain ⟨r, hkind, rfl, hscrubs⟩ := path_scrubbed hinv₁ hstep rfl hnone hafter hx hevent
    exact hscrubs (Or.inr (Or.inl ⟨rfl, hkind⟩))
  · intro before t hndl after hsteps x hx hevent
    obtain ⟨s₁, hinv₁, hstep, hafter, hnone⟩ := hcut hsteps
    obtain ⟨r, hkind, rfl, hscrubs⟩ := path_scrubbed hinv₁ hstep rfl hnone hafter hx hevent
    exact hscrubs (Or.inr (Or.inr ⟨rfl, hkind⟩))
  · rw [← hpending]
    exact path_reports hpath hinv hwait
  · intro before t hsteps
    obtain ⟨s₁, -, hstep, hafter, -⟩ := hcut hsteps
    cases hafter with
    | nil => exact (event_none hstep).2

/-- A handle is readable, and its peer has gone. -/
theorem batch_consumed_hup : ∃ steps s, Consumed [⟨1, epollIn ||| epollHup⟩] steps s ∧
    steps.map (fun x : Poller Nat × PollerCall Nat => x.2) =
      [.event (some (.pollerIn, 1)), .event (some (.pollerErr, 1)), .event none] := by
  have hadd : (poller Nat).step {} (.add 1) (({} : Poller Nat).add 1) := ⟨rfl, rfl⟩
  let s : Poller Nat := (({} : Poller Nat).add 1).setIn 1
  have hs : (poller Nat).Reachable s := ((System.Reachable.start rfl).step hadd).step
    (l := .setIn 1) rfl
  have hbatch : (poller Nat).step s (.wait [⟨1, epollIn ||| epollHup⟩])
      (s.wait [⟨1, epollIn ||| epollHup⟩]) := by
    refine ⟨fun e he => ?_, rfl⟩
    rw [List.mem_singleton.mp he]
    exact ⟨epollIn, rfl, rfl⟩
  have hpath : (poller Nat).Path (s.wait [⟨1, epollIn ||| epollHup⟩])
      [(_, .event (some (.pollerIn, 1))), (_, .event (some (.pollerErr, 1))), (_, .event none)] _ :=
    .cons rfl (.cons rfl (.cons rfl (.nil _)))
  refine ⟨_, _, batch_consumed hs hbatch hpath ?_, rfl⟩
  intro x hx
  simp only [List.mem_cons, List.not_mem_nil, or_false] at hx
  rcases hx with rfl | rfl | rfl <;> exact id

end GridMq.Aio
