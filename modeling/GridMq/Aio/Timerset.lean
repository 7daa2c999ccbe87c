import GridMq.Utils.List
import GridMq.Library.Transition
import Mathlib.Algebra.Group.Nat.Defs
import Mathlib.Data.List.Perm.Basic

set_option autoImplicit false

/-!
# Sets of timeouts (`src/aio/timerset.c`)

The handles are in a list that is ordered by the instants when they are due.  `TimerQueue` is what
the list is for: it knows which handles wait, and since which call.
-/

namespace GridMq.Aio

open GridMq.Library

variable {α : Type} [DecidableEq α]

/-! ## The set -/

/-- `struct grid_timerset`, and the list items and the instants of all handles. -/
structure Timerset (α : Type) where
  items : α → ListItem α := fun _ => {}
  timeout : α → UInt64 := fun _ => 0
  timeouts : GridList α := {}

namespace Timerset

/-- `grid_timerset_add`, with a bound on the turns of its loop. -/
def add (self : Timerset α) (now : UInt64) (timeout : Int32) (hndl : α) (fuel : Nat) :
    Option (Except Abort (Timerset α × Int32)) :=
  let self : Timerset α :=
    { self with
      timeout := Function.update self.timeout hndl (now + UInt64.ofInt timeout.toInt) }
  match GridList.walk self.items (fun ith => self.timeout hndl < self.timeout ith) fuel
      self.timeouts.first with
  | none => none
  | some (.error e) => some (.error e)
  | some (.ok it) =>
      let first := if self.timeouts.first = it then 1 else 0
      match GridList.insert self.items self.timeouts hndl it with
      | .error e => some (.error e)
      | .ok (items, timeouts) =>
          some (.ok ({ self with items := items, timeouts := timeouts }, first))

/-- `grid_timerset_rm`. -/
def rm (self : Timerset α) (hndl : α) : Except Abort (Timerset α × Int32) :=
  if GridList.isInList self.items hndl then
    let first := if self.timeouts.first = some hndl then 1 else 0
    match GridList.erase self.items self.timeouts hndl with
    | .error e => .error e
    | .ok (items, timeouts, _) =>
        .ok ({ self with items := items, timeouts := timeouts }, first)
  else .ok (self, 0)

/-- `grid_timerset_timeout`. -/
def timeLeft (self : Timerset α) (now : UInt64) : Int32 :=
  match self.timeouts.first with
  | none => -1
  | some first =>
      let timeout := (self.timeout first - now).toUInt32.toInt32
      if timeout < 0 then 0 else timeout

/-- `grid_timerset_event`.  No handle stands for `-EAGAIN`. -/
def event (self : Timerset α) (now : UInt64) : Except Abort (Timerset α × Option α) :=
  match self.timeouts.first with
  | none => .ok (self, none)
  | some first =>
      if self.timeout first > now then .ok (self, none)
      else
        match GridList.erase self.items self.timeouts first with
        | .error e => .error e
        | .ok (items, timeouts, _) =>
            .ok ({ self with items := items, timeouts := timeouts }, some first)

end Timerset

/-! ## Its runs -/

/-- A call, with what it returned; or some time that passes. -/
inductive TimersetCall (α : Type) where
  | add (hndl : α) (timeout first : Int32)
  | rm (hndl : α) (first : Int32)
  | event (hndl : Option α)
  | timeout (left : Int32)
  | tick (now : UInt64)
  deriving DecidableEq, Repr

/-- A set and what the clock shows. -/
structure Timers (α : Type) where
  set : Timerset α
  now : UInt64

/-- What the clock shows is far from the end of its range. -/
def ClockRange (now : UInt64) : Prop := now.toNat + 2 ^ 31 ≤ 2 ^ 64

/-- A call returns, and the clock does not go back. -/
def Timers.Step (s : Timers α) : TimersetCall α → Timers α → Prop
  | .add hndl timeout first, s' =>
      0 ≤ timeout.toInt ∧ ∃ fuel set,
        s.set.add s.now timeout hndl fuel = some (.ok (set, first)) ∧ s' = { s with set := set }
  | .rm hndl first, s' => ∃ set, s.set.rm hndl = .ok (set, first) ∧ s' = { s with set := set }
  | .event hndl, s' => ∃ set, s.set.event s.now = .ok (set, hndl) ∧ s' = { s with set := set }
  | .timeout left, s' => s.set.timeLeft s.now = left ∧ s' = s
  | .tick now, s' => s.now.toNat ≤ now.toNat ∧ ClockRange now ∧ s' = { s with now := now }

/-- A set that is used, from its initialisation on. -/
def timers (α : Type) [DecidableEq α] : System (Timers α) (TimersetCall α) where
  init s := s.set = {} ∧ ClockRange s.now
  step := Timers.Step

/-! ### Its steps -/

variable {s : Timers α} {set : Timerset α} {first : Int32}

theorem Timers.step_add (hndl : α) (timeout : Int32) (fuel : Nat) (htimeout : 0 ≤ timeout.toInt)
    (h : s.set.add s.now timeout hndl fuel = some (.ok (set, first))) :
    (timers α).step s (.add hndl timeout first) { s with set := set } :=
  ⟨htimeout, fuel, set, h, rfl⟩

theorem Timers.step_event {hndl : Option α} (h : s.set.event s.now = .ok (set, hndl)) :
    (timers α).step s (.event hndl) { s with set := set } := ⟨set, h, rfl⟩

theorem Timers.step_timeout {left : Int32} (h : s.set.timeLeft s.now = left) :
    (timers α).step s (.timeout left) s := ⟨h, rfl⟩

theorem Timers.step_tick {now : UInt64} (hle : s.now.toNat ≤ now.toNat) (h : ClockRange now) :
    (timers α).step s (.tick now) { s with now := now } := ⟨hle, h, rfl⟩

/-! ## What it is for -/

/-- A handle that waits: when it is due, and how many had been added before. -/
structure Waiting (α : Type) where
  hndl : α
  due : Nat
  nth : Nat
  deriving DecidableEq, Repr

/-- The order in which handles are reported. -/
def Waiting.Before (a b : Waiting α) : Prop := a.due < b.due ∨ a.due = b.due ∧ a.nth < b.nth

/-- The handles that wait, the time, and how many have been added. -/
structure TimerQueue (α : Type) where
  waiting : List (Waiting α) := []
  now : Nat
  added : Nat := 0

namespace TimerQueue

/-- The one that is reported next. -/
def Earliest (q : TimerQueue α) (e : Waiting α) : Prop :=
  e ∈ q.waiting ∧ ∀ e' ∈ q.waiting, e' = e ∨ e.Before e'

/-- A handle waits no longer. -/
def drop (q : TimerQueue α) (hndl : α) : TimerQueue α :=
  { q with waiting := q.waiting.filter fun e => e.hndl ≠ hndl }

/-- What a call does, and which results it may have. -/
inductive Step (q : TimerQueue α) : TimersetCall α → TimerQueue α → Prop where
  | add (hndl : α) (timeout first : Int32) (e : Waiting α)
      (hentry : e = { hndl := hndl, due := q.now + timeout.toInt.toNat, nth := q.added })
      (hnew : ∀ e' ∈ q.waiting, e'.hndl ≠ hndl)
      (hfirst : first = 1 ∧ (∀ e' ∈ q.waiting, e.Before e') ∨
        first = 0 ∧ ∃ e' ∈ q.waiting, e'.Before e) :
      Step q (.add hndl timeout first)
        { q with waiting := q.waiting ++ [e], added := q.added + 1 }
  | rm (hndl : α) (first : Int32)
      (hfirst : first = 1 ∧ (∃ e, q.Earliest e ∧ e.hndl = hndl) ∨
        first = 0 ∧ ∀ e, q.Earliest e → e.hndl ≠ hndl) :
      Step q (.rm hndl first) (q.drop hndl)
  | event (e : Waiting α) (hearliest : q.Earliest e) (hdue : e.due ≤ q.now) :
      Step q (.event (some e.hndl)) (q.drop e.hndl)
  | none (hdue : ∀ e ∈ q.waiting, q.now < e.due) : Step q (.event none) q
  | timeout (left : Int32) (hnone : q.waiting = [] → left = -1)
      (hleft : ∀ e, q.Earliest e → q.now < e.due → left.toInt = e.due - q.now)
      (hdue : ∀ e, q.Earliest e → 0 ≤ left.toInt) :
      Step q (.timeout left) q
  | tick (now : UInt64) (hle : q.now ≤ now.toNat) : Step q (.tick now) { q with now := now.toNat }

end TimerQueue

/-- The queue that a set of timeouts is. -/
def timerQueue (α : Type) [DecidableEq α] : System (TimerQueue α) (TimersetCall α) where
  init q := q.waiting = [] ∧ q.added = 0
  step := TimerQueue.Step

/-! ## Instants -/

/-- An instant that a timeout is added up to. -/
theorem due_toNat {now : UInt64} {t : Int32} (hrange : ClockRange now) (ht : 0 ≤ t.toInt) :
    (now + UInt64.ofInt t.toInt).toNat = now.toNat + t.toInt.toNat := by
  have hlt := t.toInt_lt
  have hofInt : (UInt64.ofInt t.toInt).toNat = t.toInt.toNat := by
    rw [UInt64.ofInt, UInt64.toNat_ofNat']
    omega
  rw [ClockRange] at hrange
  rw [UInt64.toNat_add, hofInt]
  omega

/-- The time left until an instant that is not too far away. -/
theorem left_toInt {due now : UInt64} (hle : now.toNat ≤ due.toNat)
    (hsoon : due.toNat < now.toNat + 2 ^ 31) :
    (due - now).toUInt32.toInt32.toInt = due.toNat - now.toNat := by
  have hsub : (due - now).toNat = due.toNat - now.toNat := UInt64.toNat_sub_of_le _ _ hle
  have hlow : (due - now).toUInt32.toBitVec.toNat = due.toNat - now.toNat := by
    rw [UInt32.toNat_toBitVec, UInt64.toNat_toUInt32, hsub]
    omega
  have hsigned : (due - now).toUInt32.toInt32.toInt = (due - now).toUInt32.toBitVec.toInt := rfl
  rw [hsigned, BitVec.toInt_eq_toNat_of_lt (by rw [hlow]; omega), hlow]
  omega

/-! ## The set and the queue -/

variable {s' : Timers α} {q : TimerQueue α} {xs as bs : List (Waiting α)} {e e' : Waiting α}

/-- The list consists of the handles that wait, in the order in which they are reported. -/
structure Stands (s : Timers α) (q : TimerQueue α) (xs : List (Waiting α)) : Prop where
  now : q.now = s.now.toNat
  range : ClockRange s.now
  perm : xs.Perm q.waiting
  sorted : xs.Pairwise Waiting.Before
  holds : GridList.Holds s.set.items s.set.timeouts (xs.map Waiting.hndl)
  due : ∀ e ∈ xs, (s.set.timeout e.hndl).toNat = e.due
  soon : ∀ e ∈ xs, e.due < q.now + 2 ^ 31
  nth : ∀ e ∈ xs, e.nth < q.added
  idle : ∀ hndl, (∀ e ∈ xs, e.hndl ≠ hndl) → GridList.isInList s.set.items hndl = false

omit [DecidableEq α] in
theorem Waiting.Before.asymm {a b : Waiting α} (h : a.Before b) : ¬b.Before a := by
  rw [Waiting.Before] at h ⊢
  omega

omit [DecidableEq α] in
theorem stands_start (hset : s.set = {}) (hrange : ClockRange s.now) :
    Stands s { now := s.now.toNat } [] := by
  refine ⟨rfl, hrange, List.Perm.refl [], List.Pairwise.nil, ?_, by simp, by simp, by simp, ?_⟩
  · rw [hset]
    exact GridList.holds_nil _
  · intro hndl _
    rw [hset]
    rfl

omit [DecidableEq α] in
/-- The first one in the list is the one that is reported next. -/
theorem Stands.earliest_iff (h : Stands s q (e :: bs)) : q.Earliest e' ↔ e' = e := by
  have hbefore : ∀ b ∈ bs, e.Before b := (List.pairwise_cons.mp h.sorted).1
  constructor
  · rintro ⟨hmem, hall⟩
    rcases hall e (h.perm.mem_iff.mp List.mem_cons_self) with heq | hlater
    · exact heq.symm
    · rcases List.mem_cons.mp (h.perm.mem_iff.mpr hmem) with heq | hrest
      · exact heq
      · exact absurd hlater (hbefore e' hrest).asymm
  · rintro rfl
    refine ⟨h.perm.mem_iff.mp List.mem_cons_self, fun b hb => ?_⟩
    rcases List.mem_cons.mp (h.perm.mem_iff.mpr hb) with heq | hrest
    · exact Or.inl heq
    · exact Or.inr (hbefore b hrest)

omit [DecidableEq α] in
/-- An ordered list falls into what is due until an instant and what is due later. -/
theorem exists_split (h : xs.Pairwise Waiting.Before) (due : Nat) :
    ∃ as bs, xs = as ++ bs ∧ (∀ a ∈ as, a.due ≤ due) ∧ ∀ b ∈ bs, due < b.due := by
  induction xs with
  | nil => exact ⟨[], [], rfl, by simp, by simp⟩
  | cons x rest ih =>
      obtain ⟨hx, hrest⟩ := List.pairwise_cons.mp h
      by_cases hlater : due < x.due
      · refine ⟨[], x :: rest, rfl, by simp, fun b hb => ?_⟩
        rcases List.mem_cons.mp hb with rfl | hmem
        · exact hlater
        · have hbefore := hx b hmem
          rw [Waiting.Before] at hbefore
          omega
      · obtain ⟨as, bs, rfl, has, hbs⟩ := ih hrest
        refine ⟨x :: as, bs, rfl, fun a ha => ?_, hbs⟩
        rcases List.mem_cons.mp ha with rfl | hmem
        · exact Nat.not_lt.mp hlater
        · exact has a hmem

/-- Without its handle, a list is what is in front of it and what is behind. -/
theorem filter_hndl (h : ((as ++ e :: bs).map Waiting.hndl).Nodup) :
    (as ++ e :: bs).filter (fun x => x.hndl ≠ e.hndl) = as ++ bs := by
  rw [List.map_append, List.map_cons, List.nodup_middle, ← List.map_append, List.nodup_cons] at h
  have hother : ∀ x ∈ as ++ bs, x.hndl ≠ e.hndl := fun x hx heq =>
    h.1 (heq ▸ List.mem_map_of_mem hx)
  rw [List.filter_append, List.filter_cons_of_neg (by simp),
    List.filter_eq_self.mpr fun a ha => decide_eq_true (hother a (List.mem_append_left bs ha)),
    List.filter_eq_self.mpr fun b hb => decide_eq_true (hother b (List.mem_append_right as hb))]

/-- A handle is taken out of the list. -/
theorem Stands.erase (h : Stands s q (as ++ e :: bs)) : ∃ items timeouts next,
    GridList.erase s.set.items s.set.timeouts e.hndl = .ok (items, timeouts, next) ∧
      Stands { s with set := { s.set with items := items, timeouts := timeouts } }
        (q.drop e.hndl) (as ++ bs) := by
  have hholds := h.holds
  have hperm := h.perm.filter fun x => x.hndl ≠ e.hndl
  rw [filter_hndl hholds.nodup] at hperm
  rw [List.map_append, List.map_cons] at hholds
  obtain ⟨items, timeouts, herase, hrest, hout, hsame⟩ := GridList.erase_ok hholds
  rw [← List.map_append] at hrest
  have hless : ∀ x ∈ as ++ bs, x ∈ as ++ e :: bs := fun x hx =>
    ((List.sublist_cons_self e bs).append_left as).subset hx
  refine ⟨items, timeouts, _, herase, ⟨h.now, h.range, hperm, ?_, hrest, ?_, ?_, ?_, ?_⟩⟩
  · exact h.sorted.sublist ((List.sublist_cons_self e bs).append_left as)
  · exact fun x hx => h.due x (hless x hx)
  · exact fun x hx => h.soon x (hless x hx)
  · exact fun x hx => h.nth x (hless x hx)
  · intro hndl hnone
    change GridList.isInList items hndl = false
    by_cases heq : hndl = e.hndl
    · rw [heq, GridList.isInList, hout]
      rfl
    · have hnot : ∀ x ∈ as ++ e :: bs, x.hndl ≠ hndl := by
        intro x hx
        rcases List.mem_append.mp hx with ha | hb
        · exact hnone x (List.mem_append_left bs ha)
        · rcases List.mem_cons.mp hb with rfl | hb
          · exact Ne.symm heq
          · exact hnone x (List.mem_append_right as hb)
      have hidle := h.idle hndl hnot
      rw [GridList.isInList] at hidle ⊢
      rw [hsame hndl]
      · exact hidle
      · rw [← List.map_cons, ← List.map_append, List.mem_map]
        rintro ⟨x, hx, heq⟩
        exact hnot x hx heq

/-- A handle that does not wait is put between those that are due until then and those that are
due later. -/
theorem Stands.insert (h : Stands s q (as ++ bs)) {timeout : Int32} (htimeout : 0 ≤ timeout.toInt)
    (he : e.due = q.now + timeout.toInt.toNat) (hnth : e.nth = q.added)
    (hnew : ∀ x ∈ as ++ bs, x.hndl ≠ e.hndl) (has : ∀ a ∈ as, a.due ≤ e.due)
    (hbs : ∀ b ∈ bs, e.due < b.due) : ∃ items timeouts,
    GridList.insert s.set.items s.set.timeouts e.hndl (bs.map Waiting.hndl).head? =
        .ok (items, timeouts) ∧
      Stands
        { s with
          set :=
            { items := items
              timeout := Function.update s.set.timeout e.hndl
                (s.now + UInt64.ofInt timeout.toInt)
              timeouts := timeouts } }
        { q with waiting := q.waiting ++ [e], added := q.added + 1 } (as ++ e :: bs) := by
  have hholds := h.holds
  rw [List.map_append] at hholds
  obtain ⟨items, timeouts, hinsert, hmore, hsame⟩ :=
    GridList.insert_ok hholds (h.idle e.hndl hnew)
  rw [← List.map_cons, ← List.map_append] at hmore hsame
  obtain ⟨hsortedAs, hsortedBs, hacross⟩ := List.pairwise_append.mp h.sorted
  have hcases : ∀ x ∈ as ++ e :: bs, x = e ∨ x ∈ as ++ bs := by
    intro x hx
    rw [List.mem_append, List.mem_cons] at hx
    rw [List.mem_append]
    rcases hx with hx | rfl | hx
    · exact Or.inr (Or.inl hx)
    · exact Or.inl rfl
    · exact Or.inr (Or.inr hx)
  refine ⟨items, timeouts, hinsert, ⟨h.now, h.range, ?_, ?_, hmore, ?_, ?_, ?_, ?_⟩⟩
  · exact List.perm_middle.trans ((h.perm.cons e).trans (List.perm_append_singleton e q.waiting).symm)
  · refine List.pairwise_append.mpr ⟨hsortedAs, List.pairwise_cons.mpr ⟨?_, hsortedBs⟩, ?_⟩
    · exact fun b hb => Or.inl (hbs b hb)
    · intro a ha x hx
      rcases List.mem_cons.mp hx with rfl | hb
      · have hdue := has a ha
        have hbefore := h.nth a (List.mem_append_left bs ha)
        rw [Waiting.Before]
        omega
      · exact hacross a ha x hb
  · intro x hx
    rcases hcases x hx with rfl | hold
    · simp only [Function.update_self]
      rw [due_toNat h.range htimeout, he, h.now]
    · simp only [Function.update_of_ne (hnew x hold)]
      exact h.due x hold
  · intro x hx
    rcases hcases x hx with rfl | hold
    · have hlt := timeout.toInt_lt
      simp only [he]
      omega
    · exact h.soon x hold
  · intro x hx
    rcases hcases x hx with rfl | hold
    · exact Nat.lt_succ_of_le (Nat.le_of_eq hnth)
    · exact Nat.lt_succ_of_lt (h.nth x hold)
  · intro hndl hnone
    have hidle := h.idle hndl fun x hx => by
      rcases List.mem_append.mp hx with ha | hb
      · exact hnone x (List.mem_append_left _ ha)
      · exact hnone x (List.mem_append_right as (List.mem_cons_of_mem e hb))
    rw [GridList.isInList] at hidle
    change (items hndl).prev.isSome = false
    rw [hsame hndl]
    · exact hidle
    · rw [List.mem_map]
      rintro ⟨x, hx, heq⟩
      exact hnone x hx heq

/-! ## The calls -/

/-- The loop stops at the first handle that is due later. -/
theorem Stands.find_later (h : Stands s q (as ++ bs)) {due : UInt64} {hndl : α}
    (hnew : ∀ x ∈ as ++ bs, x.hndl ≠ hndl) (has : ∀ a ∈ as, a.due ≤ due.toNat)
    (hbs : ∀ b ∈ bs, due.toNat < b.due) :
    ((as ++ bs).map Waiting.hndl).find? (fun ith =>
      Function.update s.set.timeout hndl due hndl < Function.update s.set.timeout hndl due ith) =
      (bs.map Waiting.hndl).head? := by
  have hlater : ∀ x ∈ as ++ bs, (Function.update s.set.timeout hndl due hndl <
      Function.update s.set.timeout hndl due x.hndl ↔ due.toNat < x.due) := by
    intro x hx
    rw [Function.update_self, Function.update_of_ne (hnew x hx), UInt64.lt_iff_toNat_lt, h.due x hx]
  have hnone : (as.map Waiting.hndl).find? (fun ith => Function.update s.set.timeout hndl due hndl <
      Function.update s.set.timeout hndl due ith) = none := by
    rw [List.find?_eq_none]
    intro ith hith
    obtain ⟨a, ha, rfl⟩ := List.mem_map.mp hith
    rw [decide_eq_true_iff, hlater a (List.mem_append_left bs ha)]
    exact Nat.not_lt.mpr (has a ha)
  rw [List.map_append, List.find?_append, hnone, Option.none_or]
  cases bs with
  | nil => rfl
  | cons b rest =>
      have hb := (hlater b (List.mem_append_right as List.mem_cons_self)).mpr
        (hbs b List.mem_cons_self)
      simp only [List.map_cons, List.find?_cons, hb, decide_true, List.head?_cons]

/-- `grid_timerset_add` of a handle that does not wait. -/
theorem Stands.add (h : Stands s q xs) {timeout : Int32} (htimeout : 0 ≤ timeout.toInt) {hndl : α}
    (hnew : ∀ x ∈ xs, x.hndl ≠ hndl) : ∃ set first q' xs',
    (∀ fuel, xs.length < fuel →
      s.set.add s.now timeout hndl fuel = some (.ok (set, first))) ∧
    (∀ fuel r, s.set.add s.now timeout hndl fuel = some r → r = .ok (set, first)) ∧
    q.Step (.add hndl timeout first) q' ∧ Stands { s with set := set } q' xs' := by
  let e : Waiting α := { hndl := hndl, due := q.now + timeout.toInt.toNat, nth := q.added }
  have hdue : (s.now + UInt64.ofInt timeout.toInt).toNat = e.due := by
    rw [due_toNat h.range htimeout, ← h.now]
  obtain ⟨as, bs, rfl, has, hbs⟩ := exists_split h.sorted e.due
  obtain ⟨items, timeouts, hinsert, hstands⟩ := h.insert (e := e) htimeout rfl rfl hnew has hbs
  have has' : ∀ a ∈ as, a.due ≤ (s.now + UInt64.ofInt timeout.toInt).toNat := by
    rw [hdue]
    exact has
  have hbs' : ∀ b ∈ bs, (s.now + UInt64.ofInt timeout.toInt).toNat < b.due := by
    rw [hdue]
    exact hbs
  have hfind := h.find_later hnew has' hbs'
  have hnewq : ∀ x ∈ q.waiting, x.hndl ≠ hndl := fun x hx => hnew x (h.perm.mem_iff.mpr hx)
  change GridList.insert s.set.items s.set.timeouts hndl _ = _ at hinsert
  have hlinked := h.holds.linked
  have hfirst := h.holds.first
  have hadd : ∀ fuel, GridList.walk s.set.items (fun ith =>
      decide (Function.update s.set.timeout hndl (s.now + UInt64.ofInt timeout.toInt) hndl <
        Function.update s.set.timeout hndl (s.now + UInt64.ofInt timeout.toInt) ith)) fuel
      s.set.timeouts.first = some (.ok (bs.map Waiting.hndl).head?) →
      s.set.add s.now timeout hndl fuel = some (.ok
        ({ items := items
           timeout := Function.update s.set.timeout hndl (s.now + UInt64.ofInt timeout.toInt)
           timeouts := timeouts },
          if s.set.timeouts.first = (bs.map Waiting.hndl).head? then 1 else 0)) := by
    intro fuel hwalk
    rw [Timerset.add]
    simp only [hwalk, hinsert]
  refine ⟨_, _, _, _, fun fuel hfuel => hadd fuel ?_, fun fuel r hr => ?_,
    .add hndl timeout _ e rfl hnewq ?_, hstands⟩
  · rw [hfirst, hlinked.walk_eq _ (by rw [List.length_map]; exact hfuel), hfind]
  · cases hwalk : GridList.walk s.set.items (fun ith =>
        decide (Function.update s.set.timeout hndl (s.now + UInt64.ofInt timeout.toInt) hndl <
          Function.update s.set.timeout hndl (s.now + UInt64.ofInt timeout.toInt) ith)) fuel
        s.set.timeouts.first with
    | none =>
        rw [Timerset.add] at hr
        simp only [hwalk] at hr
        exact absurd hr (by simp)
    | some w =>
        have hw := hwalk
        rw [hfirst] at hw
        rw [hlinked.walk_some _ hw, hfind] at hwalk
        rw [hadd fuel hwalk] at hr
        exact (Option.some.inj hr).symm
  · rw [hfirst]
    cases as with
    | nil =>
        rw [List.nil_append, if_pos rfl]
        refine Or.inl ⟨rfl, fun b hb => Or.inl (hbs b (h.perm.mem_iff.mpr hb))⟩
    | cons a rest =>
        rw [if_neg]
        · refine Or.inr ⟨rfl, a, h.perm.mem_iff.mp List.mem_cons_self, ?_⟩
          have hdueA := has a List.mem_cons_self
          have hnthA := h.nth a List.mem_cons_self
          rw [Waiting.Before]
          change a.due < e.due ∨ a.due = e.due ∧ a.nth < q.added
          omega
        · intro heq
          have hnodup := h.holds.nodup
          rw [List.map_append] at hnodup
          exact (List.nodup_append.mp hnodup).2.2 a.hndl List.mem_cons_self a.hndl
            (List.mem_of_mem_head? heq.symm) rfl

/-- A handle that waits is not added again. -/
theorem Stands.add_waiting (h : Stands s q xs) {timeout first : Int32} {set : Timerset α}
    (he : e ∈ xs) {fuel : Nat} :
    s.set.add s.now timeout e.hndl fuel ≠ some (.ok (set, first)) := by
  intro hadd
  rw [Timerset.add] at hadd
  simp only at hadd
  split at hadd
  · exact absurd hadd (by simp)
  · exact absurd hadd (by simp)
  · rw [GridList.insert_isInList (h.holds.linked.isInList (List.mem_map_of_mem he))] at hadd
    exact absurd hadd (by simp)

/-- `grid_timerset_rm`. -/
theorem Stands.rm (h : Stands s q xs) (hndl : α) : ∃ set first q' xs',
    s.set.rm hndl = .ok (set, first) ∧ q.Step (.rm hndl first) q' ∧
      Stands { s with set := set } q' xs' := by
  by_cases hmem : ∃ e ∈ xs, e.hndl = hndl
  · obtain ⟨e, he, rfl⟩ := hmem
    obtain ⟨as, bs, rfl⟩ := List.append_of_mem he
    obtain ⟨items, timeouts, next, herase, hstands⟩ := h.erase
    have hin : GridList.isInList s.set.items e.hndl = true :=
      h.holds.linked.isInList (List.mem_map_of_mem he)
    refine ⟨_, if s.set.timeouts.first = some e.hndl then 1 else 0, _, _, ?_, .rm e.hndl _ ?_,
      hstands⟩
    · rw [Timerset.rm, if_pos hin, herase]
    · rw [h.holds.first]
      cases as with
      | nil => exact Or.inl ⟨if_pos rfl, e, h.earliest_iff.mpr rfl, rfl⟩
      | cons a rest =>
          have hne : a.hndl ≠ e.hndl := by
            have hnodup := h.holds.nodup
            rw [List.cons_append, List.map_cons, List.nodup_cons] at hnodup
            exact fun heq => hnodup.1
              (heq ▸ List.mem_map_of_mem (List.mem_append_right rest List.mem_cons_self))
          refine Or.inr ⟨if_neg fun heq => hne (Option.some.inj heq), fun e' he' => ?_⟩
          rw [h.earliest_iff.mp he']
          exact hne
  · have hnone : ∀ x ∈ xs, x.hndl ≠ hndl := fun x hx heq => hmem ⟨x, hx, heq⟩
    have hnoneq : ∀ x ∈ q.waiting, x.hndl ≠ hndl := fun x hx => hnone x (h.perm.mem_iff.mpr hx)
    have hsame : q.drop hndl = q := by
      rw [TimerQueue.drop, List.filter_eq_self.mpr fun x hx => decide_eq_true (hnoneq x hx)]
    refine ⟨s.set, 0, q.drop hndl, xs, ?_, .rm hndl 0 (Or.inr ⟨rfl, ?_⟩), ?_⟩
    · rw [Timerset.rm, h.idle hndl hnone, if_neg Bool.false_ne_true]
    · exact fun e he => hnoneq e he.1
    · rw [hsame]
      exact h

/-- `grid_timerset_event`. -/
theorem Stands.event (h : Stands s q xs) : ∃ set r q' xs',
    s.set.event s.now = .ok (set, r) ∧ q.Step (.event r) q' ∧
      Stands { s with set := set } q' xs' := by
  have hfirst := h.holds.first
  cases xs with
  | nil =>
      have hnone : q.waiting = [] := h.perm.symm.eq_nil
      refine ⟨s.set, none, q, [], ?_, .none ?_, h⟩
      · rw [Timerset.event, hfirst]
        rfl
      · rw [hnone]
        simp
  | cons e rest =>
      have hdue := h.due e List.mem_cons_self
      rw [List.map_cons, List.head?_cons] at hfirst
      have hlater : s.set.timeout e.hndl > s.now ↔ q.now < e.due := by
        rw [gt_iff_lt, UInt64.lt_iff_toNat_lt, hdue, h.now]
      by_cases hwait : q.now < e.due
      · refine ⟨s.set, none, q, e :: rest, ?_, .none ?_, h⟩
        · rw [Timerset.event, hfirst]
          exact if_pos (hlater.mpr hwait)
        · intro x hx
          rcases (h.earliest_iff.mpr rfl).2 x hx with rfl | hbefore
          · exact hwait
          · rw [Waiting.Before] at hbefore
            omega
      · have hfirstOne : Stands s q ([] ++ e :: rest) := h
        obtain ⟨items, timeouts, next, herase, hstands⟩ := hfirstOne.erase
        refine ⟨_, _, _, _, ?_, .event e (h.earliest_iff.mpr rfl) (Nat.not_lt.mp hwait), hstands⟩
        rw [Timerset.event, hfirst]
        simp only [if_neg (fun hgt => hwait (hlater.mp hgt)), herase]

/-- `grid_timerset_timeout`. -/
theorem Stands.timeLeft (h : Stands s q xs) : q.Step (.timeout (s.set.timeLeft s.now)) q := by
  have hfirst := h.holds.first
  cases xs with
  | nil =>
      have hnone : q.waiting = [] := h.perm.symm.eq_nil
      have hno : ∀ e, ¬q.Earliest e := by
        rintro e ⟨hmem, -⟩
        rw [hnone] at hmem
        exact List.not_mem_nil hmem
      refine .timeout _ (fun _ => ?_) (fun e he => absurd he (hno e)) (fun e he => absurd he (hno e))
      rw [Timerset.timeLeft, hfirst]
      rfl
  | cons e rest =>
      rw [List.map_cons, List.head?_cons] at hfirst
      have hdue := h.due e List.mem_cons_self
      have hsoon := h.soon e List.mem_cons_self
      have hmem : e ∈ q.waiting := h.perm.mem_iff.mp List.mem_cons_self
      rw [Timerset.timeLeft, hfirst]
      simp only
      refine .timeout _ (fun hnone => ?_) (fun e' he' hwait => ?_) (fun e' he' => ?_)
      · rw [hnone] at hmem
        exact absurd hmem List.not_mem_nil
      · rw [h.earliest_iff.mp he'] at hwait ⊢
        have hlate : s.now.toNat ≤ (s.set.timeout e.hndl).toNat := by
          rw [hdue, ← h.now]
          omega
        have hlimit : (s.set.timeout e.hndl).toNat < s.now.toNat + 2 ^ 31 := by
          rw [hdue, ← h.now]
          exact hsoon
        have hleft := left_toInt hlate hlimit
        rw [hdue, ← h.now] at hleft
        rw [if_neg]
        · exact hleft
        · rw [Int32.lt_iff_toInt_lt, hleft]
          change ¬(_ : Int) < 0
          omega
      · split
        · exact Int.le_refl 0
        · rename_i hneg
          rw [Int32.lt_iff_toInt_lt] at hneg
          exact Int.not_lt.mp hneg

/-! ## All runs -/

/-- A call of the set is one of the queue. -/
theorem Stands.step (h : Stands s q xs) {l : TimersetCall α} (hstep : s.Step l s') :
    ∃ q' xs', q.Step l q' ∧ Stands s' q' xs' := by
  cases l with
  | add hndl timeout first =>
      obtain ⟨htimeout, fuel, set, hadd, rfl⟩ := hstep
      have hnew : ∀ x ∈ xs, x.hndl ≠ hndl := by
        rintro x hx rfl
        exact h.add_waiting hx hadd
      obtain ⟨set', first', q', xs', -, hunique, hq, hstands⟩ := h.add htimeout hnew
      obtain ⟨rfl, rfl⟩ := Prod.mk.inj (Except.ok.inj (hunique fuel _ hadd))
      exact ⟨q', xs', hq, hstands⟩
  | rm hndl first =>
      obtain ⟨set, hrm, rfl⟩ := hstep
      obtain ⟨set', first', q', xs', hrm', hq, hstands⟩ := h.rm hndl
      rw [hrm'] at hrm
      obtain ⟨rfl, rfl⟩ := Prod.mk.inj (Except.ok.inj hrm)
      exact ⟨q', xs', hq, hstands⟩
  | event r =>
      obtain ⟨set, hevent, rfl⟩ := hstep
      obtain ⟨set', r', q', xs', hevent', hq, hstands⟩ := h.event
      rw [hevent'] at hevent
      obtain ⟨rfl, rfl⟩ := Prod.mk.inj (Except.ok.inj hevent)
      exact ⟨q', xs', hq, hstands⟩
  | timeout left =>
      obtain ⟨rfl, rfl⟩ := hstep
      exact ⟨q, xs, h.timeLeft, h⟩
  | tick now =>
      obtain ⟨hle, hrange, rfl⟩ := hstep
      refine ⟨_, xs, .tick now (h.now ▸ hle), ⟨rfl, hrange, h.perm, h.sorted, h.holds, h.due, ?_,
        h.nth, h.idle⟩⟩
      intro e he
      have hsoon := h.soon e he
      rw [h.now] at hsoon
      exact Nat.lt_of_lt_of_le hsoon (Nat.add_le_add_right hle _)

/-- Whatever is called, the set is the queue. -/
theorem stands_run {labels : List (TimersetCall α)} (hrun : (timers α).Run labels s) :
    ∃ q xs, (timerQueue α).Run labels q ∧ Stands s q xs := by
  induction hrun with
  | start h => exact ⟨_, [], .start ⟨rfl, rfl⟩, stands_start h.1 h.2⟩
  | step _ hstep ih =>
      obtain ⟨q, xs, hq, hstands⟩ := ih
      obtain ⟨q', xs', hstep', hstands'⟩ := hstands.step hstep
      exact ⟨q', xs', .step hq hstep', hstands'⟩

/-- How often a handle was added. -/
def timesAdded (hndl : α) (labels : List (TimersetCall α)) : Nat :=
  labels.countP fun l =>
    match l with
    | .add h _ _ => h = hndl
    | _ => false

/-- How often a handle was reported. -/
def timesReported (hndl : α) (labels : List (TimersetCall α)) : Nat := labels.count (.event (some hndl))

/-- A handle that is reported was added before, once for each report. -/
theorem timesReported_le {labels : List (TimersetCall α)} (hrun : (timerQueue α).Run labels q)
    (hndl : α) :
    timesReported hndl labels + q.waiting.countP (fun e => e.hndl = hndl) ≤ timesAdded hndl labels := by
  induction hrun with
  | start h =>
      rw [h.1]
      exact Nat.le_refl 0
  | @step labels q q' l _ hstep ih =>
      rw [timesReported, timesAdded] at ih ⊢
      rw [List.count_append, List.countP_append, List.count_singleton, List.countP_singleton]
      have hdrop : ∀ h : α, (q.drop h).waiting.countP (fun e => e.hndl = hndl) ≤
          q.waiting.countP fun e => e.hndl = hndl := fun h =>
        List.Sublist.countP_le List.filter_sublist
      cases hstep with
      | add h timeout first e hentry hnew hfirst =>
          rw [List.countP_append, List.countP_singleton, hentry]
          by_cases heq : h = hndl
          · simp only [heq, decide_true, if_true, beq_iff_eq, reduceCtorEq, if_false]
            omega
          · simp only [heq, decide_false, Bool.false_eq_true, beq_iff_eq, reduceCtorEq, if_false]
            omega
      | rm h first hfirst =>
          have hless := hdrop h
          simp only [beq_iff_eq, reduceCtorEq, Bool.false_eq_true, if_false]
          omega
      | event e hearliest hdue =>
          by_cases heq : e.hndl = hndl
          · have hnone : (q.drop hndl).waiting.countP (fun e => e.hndl = hndl) = 0 := by
              rw [List.countP_eq_zero]
              intro x hx
              have hne := (List.mem_filter.mp hx).2
              simpa using hne
            have hsome : 0 < q.waiting.countP fun e => e.hndl = hndl :=
              List.countP_pos_iff.mpr ⟨e, hearliest.1, decide_eq_true heq⟩
            simp only [heq, hnone, beq_self_eq_true, if_true, Bool.false_eq_true, if_false]
            omega
          · have hless := hdrop e.hndl
            simp only [beq_iff_eq, TimersetCall.event.injEq, Option.some.injEq, heq,
              Bool.false_eq_true, if_false]
            omega
      | none hdue => simpa using ih
      | timeout left hnone hleft hdue => simpa using ih
      | tick now hle => simpa using ih

/-- No call gets stuck: the loop ends, and no assertion fails. -/
structure Answers (s : Timers α) (q : TimerQueue α) : Prop where
  add : ∀ hndl (timeout : Int32), 0 ≤ timeout.toInt → (∀ e ∈ q.waiting, e.hndl ≠ hndl) →
    ∃ first s', s.Step (.add hndl timeout first) s'
  rm : ∀ hndl, ∃ first s', s.Step (.rm hndl first) s'
  event : ∃ hndl s', s.Step (.event hndl) s'
  timeout : ∃ left s', s.Step (.timeout left) s'

theorem Stands.answers (h : Stands s q xs) : Answers s q where
  add hndl timeout htimeout hnew := by
    obtain ⟨set, first, -, -, hadd, -⟩ :=
      h.add htimeout fun x hx => hnew x (h.perm.mem_iff.mp hx)
    exact ⟨first, _, Timers.step_add hndl timeout _ htimeout (hadd _ (Nat.lt_succ_self _))⟩
  rm hndl := by
    obtain ⟨set, first, -, -, hrm, -⟩ := h.rm hndl
    exact ⟨first, _, set, hrm, rfl⟩
  event := by
    obtain ⟨set, r, -, -, hevent, -⟩ := h.event
    exact ⟨r, _, Timers.step_event hevent⟩
  timeout := ⟨_, s, Timers.step_timeout rfl⟩

/-- In every run the set is a queue in the order of the instants when the handles are due: its list
has this order, its calls return what the queue's do, and a handle is reported at most as often as
it was added. -/
theorem timers_fire {labels : List (TimersetCall α)} (hrun : (timers α).Run labels s) :
    ∃ q xs, (timerQueue α).Run labels q ∧ Stands s q xs ∧ Answers s q ∧
      ∀ hndl, timesReported hndl labels ≤ timesAdded hndl labels := by
  obtain ⟨q, xs, hq, hstands⟩ := stands_run hrun
  exact ⟨q, xs, hq, hstands, hstands.answers, fun hndl =>
    Nat.le_trans (Nat.le_add_right _ _) (timesReported_le hq hndl)⟩

/-- Two handles are added, the later one first; the time passes and one is reported. -/
theorem timers_fire_two : ∃ s : Timers Nat, ∃ q xs,
    (timerQueue Nat).Run [.add 1 9 1, .add 2 5 1, .timeout 5, .tick 7, .event (some 2)] q ∧
      Stands s q xs ∧ Answers s q ∧ ∀ hndl, timesReported hndl
        [.add 1 9 1, .add 2 5 1, .timeout 5, .tick 7, .event (some 2)] ≤
          timesAdded hndl [.add 1 9 1, .add 2 5 1, .timeout 5, .tick 7, .event (some 2)] := by
  have hrange : ∀ n : Nat, n < 8 → ClockRange (UInt64.ofNat n) := by
    intro n hn
    rw [ClockRange, UInt64.toNat_ofNat']
    omega
  have hstart : (timers Nat).Run [] { set := {}, now := 0 } := .start ⟨rfl, hrange 0 (by decide)⟩
  have hadd := hstart.step (Timers.step_add 1 9 1 (by decide) rfl)
  have hearlier := hadd.step (Timers.step_add 2 5 2 (by decide) rfl)
  have hleft := hearlier.step (Timers.step_timeout rfl)
  have htick := hleft.step (Timers.step_tick (by decide) (hrange 7 (by decide)))
  have hrun := htick.step (Timers.step_event rfl)
  exact ⟨_, timers_fire hrun⟩

end GridMq.Aio
