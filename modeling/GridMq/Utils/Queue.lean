import GridMq.Utils.Err
import Mathlib.Data.List.Nodup
import Mathlib.Logic.Function.Basic

set_option autoImplicit false

/-!
# Queues of items (`src/utils/queue.c`)

The items of a queue are parts of what is in it, and are linked in one direction.  There may be
more than one queue for the same items, and each of them stands for a sequence.
-/

namespace GridMq

/-! ## The queues -/

/-- `struct grid_queue_item`.  `none` is `GRID_QUEUE_NOTINQUEUE`, and `some none` is `NULL`. -/
structure QueueItem (α : Type) where
  next : Option (Option α) := none
  deriving DecidableEq, Repr

/-- `struct grid_queue`. -/
structure GridQueue (α : Type) where
  head : Option α := none
  tail : Option α := none
  deriving DecidableEq, Repr

namespace GridQueue

variable {α : Type} [DecidableEq α]

/-- `grid_queue_item_isinqueue`. -/
def isInQueue (items : α → QueueItem α) (item : α) : Bool := (items item).next.isSome

/-- `grid_queue_empty`. -/
def empty (self : GridQueue α) : Bool := self.head.isNone

/-- `if (p) p->next = to;` -/
def setNext (items : α → QueueItem α) (p target : Option α) : α → QueueItem α :=
  match p with
  | none => items
  | some a => Function.update items a { next := some target }

/-- `grid_queue_push`. -/
def push (items : α → QueueItem α) (self : GridQueue α) (item : α) :
    Except Abort ((α → QueueItem α) × GridQueue α) := do
  gridAssert (isInQueue items item = false)
  let items := Function.update items item { next := some none }
  let head := if self.head = none then some item else self.head
  return (setNext items self.tail (some item), { head := head, tail := some item })

/-- The loop of `grid_queue_remove` up to the item, with a bound on its turns: what is in front of
the item. -/
def findPrev (items : α → QueueItem α) (item : α) :
    Nat → Option α → Option α → Option (Except Abort (Option (Option α)))
  | 0, _, _ => none
  | _ + 1, _, none => some (.ok none)
  | fuel + 1, prev, some it =>
      if it = item then some (.ok (some prev))
      else
        match (items it).next with
        | none => some (.error .nullPointer)
        | some next => findPrev items item fuel (some it) next

/-- `grid_queue_remove`. -/
def remove (fuel : Nat) (items : α → QueueItem α) (self : GridQueue α) (item : α) :
    Option (Except Abort ((α → QueueItem α) × GridQueue α)) :=
  match (items item).next with
  | none => some (.ok (items, self))
  | some next =>
      match findPrev items item fuel none self.head with
      | none => none
      | some (.error e) => some (.error e)
      | some (.ok none) => some (.ok (items, self))
      | some (.ok (some prev)) =>
          let head := if self.head = some item then next else self.head
          let tail := if self.tail = some item then prev else self.tail
          let items := setNext items prev next
          some (.ok (Function.update items item {}, { head := head, tail := tail }))

/-- `grid_queue_pop`. -/
def pop (items : α → QueueItem α) (self : GridQueue α) :
    Except Abort ((α → QueueItem α) × GridQueue α × Option α) :=
  match self.head with
  | none => .ok (items, self, none)
  | some result =>
      match (items result).next with
      | none => .error .nullPointer
      | some head =>
          let tail := if head = none then none else self.tail
          .ok (Function.update items result {}, { head := head, tail := tail }, some result)

end GridQueue

/-! ## Calls -/

/-- Some queues with the items there are. -/
structure QueueState (ι α : Type) where
  items : α → QueueItem α := fun _ => {}
  queues : ι → GridQueue α := fun _ => {}

/-- A call on one of the queues. -/
inductive QueueCall (ι α : Type) where
  | push (i : ι) (item : α)
  | pop (i : ι)
  | remove (i : ι) (item : α)
  | empty (i : ι)
  | isInQueue (item : α)
  deriving DecidableEq, Repr

/-- What a call returns. -/
inductive QueueResult (α : Type) where
  | nothing
  | item (it : Option α)
  | flag (value : Bool)
  deriving DecidableEq, Repr

namespace QueueState

variable {ι α : Type} [DecidableEq ι] [DecidableEq α]

/-- One call. -/
def call (fuel : Nat) (self : QueueState ι α) :
    QueueCall ι α → Option (Except Abort (QueueState ι α × QueueResult α))
  | .push i item => some do
      let (items, queue) ← GridQueue.push self.items (self.queues i) item
      return ({ items := items, queues := Function.update self.queues i queue }, .nothing)
  | .pop i => some do
      let (items, queue, result) ← GridQueue.pop self.items (self.queues i)
      return ({ items := items, queues := Function.update self.queues i queue }, .item result)
  | .remove i item =>
      (GridQueue.remove fuel self.items (self.queues i) item).map fun r => do
        let (items, queue) ← r
        return ({ items := items, queues := Function.update self.queues i queue }, .nothing)
  | .empty i => some (.ok (self, .flag (self.queues i).empty))
  | .isInQueue item => some (.ok (self, .flag (GridQueue.isInQueue self.items item)))

/-- Calls one after the other, with what they return. -/
def calls (fuel : Nat) (self : QueueState ι α) :
    List (QueueCall ι α) → Option (Except Abort (QueueState ι α × List (QueueResult α)))
  | [] => some (.ok (self, []))
  | c :: cs =>
      match self.call fuel c with
      | none => none
      | some (.error e) => some (.error e)
      | some (.ok (self, r)) =>
          (calls fuel self cs).map fun rest => do
            let (self, rs) ← rest
            return (self, r :: rs)

/-- The items that a walk from an item on by `next` comes by, with a bound on its turns. -/
def walk (items : α → QueueItem α) : Nat → Option α → Option (Except Abort (List α))
  | 0, _ => none
  | _ + 1, none => some (.ok [])
  | fuel + 1, some a =>
      match (items a).next with
      | none => some (.error .nullPointer)
      | some next => (walk items fuel next).map fun r => r.map (a :: ·)

end QueueState

/-! ## Sequences -/

/-- What a call does to the sequences of the queues. -/
inductive FifoStep {ι α : Type} [DecidableEq ι] [DecidableEq α] (q : ι → List α) :
    QueueCall ι α → (ι → List α) → QueueResult α → Prop where
  /-- the item is in none of them -/
  | push (i : ι) (x : α) (h : ∀ j, x ∉ q j) :
      FifoStep q (.push i x) (Function.update q i (q i ++ [x])) .nothing
  | pop (i : ι) : FifoStep q (.pop i) (Function.update q i (q i).tail) (.item (q i).head?)
  /-- the item is in this one, in another one or in none -/
  | remove (i : ι) (x : α) :
      FifoStep q (.remove i x) (Function.update q i ((q i).erase x)) .nothing
  | empty (i : ι) : FifoStep q (.empty i) q (.flag (q i).isEmpty)
  | isInQueue (x : α) (b : Bool) (h : b = true ↔ ∃ j, x ∈ q j) :
      FifoStep q (.isInQueue x) q (.flag b)

/-- Calls one after the other. -/
inductive FifoRun {ι α : Type} [DecidableEq ι] [DecidableEq α] :
    (ι → List α) → List (QueueCall ι α) → (ι → List α) → List (QueueResult α) → Prop where
  | nil (q : ι → List α) : FifoRun q [] q []
  | cons {q q₁ q₂ : ι → List α} {c : QueueCall ι α} {r : QueueResult α}
      {cs : List (QueueCall ι α)} {rs : List (QueueResult α)} (step : FifoStep q c q₁ r)
      (rest : FifoRun q₁ cs q₂ rs) : FifoRun q (c :: cs) q₂ (r :: rs)

/-! ## The items of a queue -/

namespace GridQueue

variable {α : Type} {items : α → QueueItem α} {n : Option α} {xs as bs : List α} {x : α}

/-- Some items in a row are linked to each other and to what is behind. -/
def Linked (items : α → QueueItem α) : List α → Option α → Prop
  | [], _ => True
  | a :: rest, n => items a = { next := some (rest.head?.or n) } ∧ Linked items rest n

theorem linked_append (as bs : List α) :
    Linked items (as ++ bs) n ↔ Linked items as (bs.head?.or n) ∧ Linked items bs n := by
  induction as with
  | nil => simp [Linked]
  | cons a as ih =>
    rw [List.cons_append, Linked, Linked, ih, List.head?_append, Option.or_assoc, and_assoc]

/-- Only the items themselves matter. -/
theorem Linked.congr {items' : α → QueueItem α} (h : Linked items xs n)
    (hsame : ∀ y ∈ xs, items' y = items y) : Linked items' xs n := by
  induction xs with
  | nil => trivial
  | cons a rest ih =>
    refine ⟨(hsame a List.mem_cons_self).trans h.1, ih h.2 ?_⟩
    intro y hy
    exact hsame y (List.mem_cons_of_mem a hy)

theorem Linked.isInQueue (h : Linked items xs n) (hx : x ∈ xs) : isInQueue items x = true := by
  induction xs with
  | nil => exact absurd hx List.not_mem_nil
  | cons a rest ih =>
    rcases List.mem_cons.mp hx with rfl | hrest
    · rw [GridQueue.isInQueue, h.1]
      rfl
    · exact ih h.2 hrest

/-- The items that a queue consists of. -/
structure Holds (items : α → QueueItem α) (queue : GridQueue α) (xs : List α) : Prop where
  nodup : xs.Nodup
  head : queue.head = xs.head?
  tail : queue.tail = xs.getLast?
  linked : Linked items xs none

theorem holds_nil (items : α → QueueItem α) : Holds items {} [] :=
  ⟨List.nodup_nil, rfl, rfl, trivial⟩

theorem Holds.congr {items' : α → QueueItem α} {queue : GridQueue α} (h : Holds items queue xs)
    (hsame : ∀ y ∈ xs, items' y = items y) : Holds items' queue xs :=
  ⟨h.nodup, h.head, h.tail, h.linked.congr hsame⟩

variable [DecidableEq α]

/-- The last one of some items gets another successor. -/
theorem setNext_getLast (h : Linked items as n) (hnodup : as.Nodup) (m : Option α) :
    Linked (setNext items as.getLast? m) as m ∧
      ∀ y ∉ as, setNext items as.getLast? m y = items y := by
  rcases as.eq_nil_or_concat' with rfl | ⟨front, a, rfl⟩
  · exact ⟨trivial, fun _ _ => rfl⟩
  · rw [List.getLast?_concat, setNext]
    obtain ⟨hfront, ha, -⟩ := (linked_append front [a]).mp h
    have hnot : a ∉ front := fun hmem =>
      (List.nodup_append.mp hnodup).2.2 a hmem a (List.mem_singleton_self a) rfl
    refine ⟨(linked_append front [a]).mpr ⟨?_, ?_, trivial⟩, ?_⟩
    · refine hfront.congr fun y hy => Function.update_of_ne ?_ _ _
      rintro rfl
      exact hnot hy
    · rw [Function.update_self]
      rfl
    · intro y hy
      refine Function.update_of_ne ?_ _ _
      rintro rfl
      exact hy (List.mem_append_right _ (List.mem_singleton_self y))

variable {queue : GridQueue α}

/-- An item that is in no queue goes to the end. -/
theorem push_ok (h : Holds items queue xs) (hx : isInQueue items x = false) :
    ∃ items' queue', push items queue x = .ok (items', queue') ∧
      Holds items' queue' (xs ++ [x]) ∧ ∀ y, y ∉ xs ++ [x] → items' y = items y := by
  have hnot : x ∉ xs := fun hmem => by
    rw [h.linked.isInQueue hmem] at hx
    exact Bool.noConfusion hx
  have hother : ∀ y, y ≠ x → ∀ e, Function.update items x e y = items y :=
    fun y hy e => Function.update_of_ne hy e items
  obtain ⟨hlinked, hsame⟩ := setNext_getLast
    (h.linked.congr fun y hy => hother y (fun heq => hnot (heq ▸ hy)) { next := some none })
    h.nodup (some x)
  have hhead : (if queue.head = none then some x else queue.head) = (xs ++ [x]).head? := by
    rw [h.head]
    cases xs with
    | nil => rfl
    | cons a rest => exact if_neg (Option.some_ne_none a)
  refine ⟨setNext (Function.update items x { next := some none }) xs.getLast? (some x),
    { head := (xs ++ [x]).head?, tail := some x }, ?_,
    ⟨?_, rfl, List.getLast?_concat.symm, (linked_append xs [x]).mpr ⟨hlinked, ?_, trivial⟩⟩, ?_⟩
  · simp only [push, gridAssert_pos hx, ok_bind, h.tail, hhead, pure_eq_ok]
  · exact List.nodup_append.mpr ⟨h.nodup, List.nodup_singleton x, fun a ha b hb heq =>
      hnot (List.mem_singleton.mp hb ▸ heq ▸ ha)⟩
  · rw [hsame x hnot, Function.update_self]
    rfl
  · intro y hy
    rw [List.mem_append, not_or, List.mem_singleton] at hy
    rw [hsame y hy.1, hother y hy.2]

/-- The first item is taken out. -/
theorem pop_ok (h : Holds items queue (x :: xs)) :
    ∃ items' queue', pop items queue = .ok (items', queue', some x) ∧ Holds items' queue' xs ∧
      items' x = {} ∧ ∀ y, y ≠ x → items' y = items y := by
  obtain ⟨hx, hrest⟩ := h.linked
  obtain ⟨hnot, hnodup⟩ := List.nodup_cons.mp h.nodup
  rw [Option.or_none] at hx
  have htail : (if xs.head? = none then none else queue.tail) = xs.getLast? := by
    rw [h.tail]
    cases xs with
    | nil => rfl
    | cons a rest => exact if_neg (Option.some_ne_none a)
  have hother : ∀ y, y ≠ x → Function.update items x {} y = items y :=
    fun y hy => Function.update_of_ne hy {} items
  refine ⟨Function.update items x {}, { head := xs.head?, tail := xs.getLast? }, ?_,
    ⟨hnodup, rfl, rfl, hrest.congr fun y hy => hother y (fun heq => hnot (heq ▸ hy))⟩,
    Function.update_self x {} items, hother⟩
  simp only [pop, h.head, List.head?_cons, hx, htail]

/-- The loop comes by all items up to the one that is sought. -/
theorem Linked.findPrev_eq (hlinked : Linked items (as ++ x :: bs) n) (hx : x ∉ as) :
    ∀ (prev : Option α) (fuel : Nat), as.length < fuel →
      findPrev items x fuel prev (as ++ x :: bs).head? =
        some (.ok (some (as.getLast?.or prev))) := by
  induction as with
  | nil =>
    intro prev fuel hfuel
    obtain ⟨fuel, rfl⟩ : ∃ k, fuel = k + 1 := ⟨fuel - 1, by omega⟩
    rw [List.nil_append, List.head?_cons, findPrev, if_pos rfl]
    rfl
  | cons a as ih =>
    intro prev fuel hfuel
    obtain ⟨fuel, rfl⟩ : ∃ k, fuel = k + 1 := ⟨fuel - 1, by omega⟩
    rw [List.mem_cons, not_or] at hx
    obtain ⟨ha, hrest⟩ := hlinked
    have hnext : (items a).next = some (as ++ x :: bs).head? := by
      rw [ha]
      cases as <;> rfl
    have hlast : (a :: as).getLast?.or prev = as.getLast?.or (some a) := by
      rw [List.getLast?_cons]
      cases as.getLast? <;> rfl
    rw [List.cons_append, List.head?_cons, findPrev, if_neg (fun heq => hx.1 heq.symm)]
    simp only [hnext]
    rw [ih hrest hx.2 (some a) fuel (Nat.lt_of_succ_lt_succ hfuel), hlast]

/-- The loop comes to the end where the item that is sought is not there. -/
theorem Linked.findPrev_none (hlinked : Linked items xs none) (hx : x ∉ xs) :
    ∀ (prev : Option α) (fuel : Nat), xs.length < fuel →
      findPrev items x fuel prev xs.head? = some (.ok none) := by
  induction xs with
  | nil =>
    intro prev fuel hfuel
    obtain ⟨fuel, rfl⟩ : ∃ k, fuel = k + 1 := ⟨fuel - 1, by omega⟩
    rfl
  | cons a rest ih =>
    intro prev fuel hfuel
    obtain ⟨fuel, rfl⟩ : ∃ k, fuel = k + 1 := ⟨fuel - 1, by omega⟩
    rw [List.mem_cons, not_or] at hx
    obtain ⟨ha, hrest⟩ := hlinked
    rw [Option.or_none] at ha
    rw [List.head?_cons, findPrev, if_neg (fun heq => hx.1 heq.symm), ha]
    exact ih hrest hx.2 (some a) fuel (Nat.lt_of_succ_lt_succ hfuel)

/-- An item is taken out of its queue. -/
theorem remove_ok (h : Holds items queue (as ++ x :: bs)) {fuel : Nat}
    (hfuel : as.length < fuel) :
    ∃ items' queue', remove fuel items queue x = some (.ok (items', queue')) ∧
      Holds items' queue' (as ++ bs) ∧ items' x = {} ∧
      ∀ y, y ∉ as ++ x :: bs → items' y = items y := by
  have hnodup := h.nodup
  rw [List.nodup_middle, List.nodup_cons] at hnodup
  obtain ⟨hnot, hrest⟩ := hnodup
  obtain ⟨hnodupAs, hnodupBs, hdisjoint⟩ := List.nodup_append.mp hrest
  obtain ⟨hlinkAs, hx, hlinkBs⟩ := (linked_append as (x :: bs)).mp h.linked
  rw [Option.or_none] at hx
  have hxAs : x ∉ as := fun hmem => hnot (List.mem_append_left bs hmem)
  have hfind := h.linked.findPrev_eq hxAs none fuel hfuel
  rw [Option.or_none, ← h.head] at hfind
  obtain ⟨hlink, hsame⟩ := setNext_getLast hlinkAs hnodupAs bs.head?
  have hother : ∀ y, y ≠ x →
      Function.update (setNext items as.getLast? bs.head?) x {} y =
        setNext items as.getLast? bs.head? y :=
    fun y hy => Function.update_of_ne hy _ _
  have hhead : (if queue.head = some x then bs.head? else queue.head) = (as ++ bs).head? := by
    rw [h.head]
    cases as with
    | nil => exact if_pos rfl
    | cons a rest =>
      refine if_neg fun heq => hxAs ?_
      rw [← Option.some.inj heq]
      exact List.mem_cons_self
  have htail : (if queue.tail = some x then as.getLast? else queue.tail) =
      (as ++ bs).getLast? := by
    rw [h.tail, List.getLast?_append, List.getLast?_append]
    cases bs with
    | nil => exact if_pos rfl
    | cons b rest =>
      refine if_neg fun heq => hnot (List.mem_append_right as ?_)
      refine List.mem_of_getLast? ?_
      rw [← heq, List.getLast?_cons_cons, List.getLast?_cons]
      rfl
  refine ⟨Function.update (setNext items as.getLast? bs.head?) x {},
    { head := (as ++ bs).head?, tail := (as ++ bs).getLast? }, ?_, ⟨hrest, rfl, rfl, ?_⟩,
    Function.update_self _ _ _, ?_⟩
  · simp only [remove, hx, hfind, hhead, htail]
  · refine (linked_append as bs).mpr ⟨?_, ?_⟩
    · rw [Option.or_none]
      exact hlink.congr fun y hy => hother y (fun heq => hxAs (heq ▸ hy))
    · refine hlinkBs.congr fun y hy => ?_
      rw [hother y (fun heq => hnot (List.mem_append_right as (heq ▸ hy)))]
      exact hsame y fun hyAs => hdisjoint y hyAs y hy rfl
  · intro y hy
    have hyAs : y ∉ as := fun hmem => hy (List.mem_append_left _ hmem)
    have hyx : y ≠ x := by
      rintro rfl
      exact hy (List.mem_append_right _ List.mem_cons_self)
    rw [hother y hyx, hsame y hyAs]

/-- An item that is not in the queue is left where it is. -/
theorem remove_not_mem (h : Holds items queue xs) (hx : x ∉ xs) {fuel : Nat}
    (hfuel : xs.length < fuel) : remove fuel items queue x = some (.ok (items, queue)) := by
  have hfind := h.linked.findPrev_none hx none fuel hfuel
  rw [← h.head] at hfind
  rw [remove]
  cases (items x).next with
  | none => rfl
  | some next => simp only [hfind]

end GridQueue

/-! ## The queues stand for the sequences -/

namespace QueueState

variable {ι α : Type} {s : QueueState ι α} {q : ι → List α}

open GridQueue

/-- Each queue consists of the elements of its sequence, an item is in one of them at most, and
no item is marked that is in none. -/
structure Represents (s : QueueState ι α) (q : ι → List α) : Prop where
  holds : ∀ i, Holds s.items (s.queues i) (q i)
  apart : ∀ i j x, x ∈ q i → x ∈ q j → i = j
  idle : ∀ x, (∀ i, x ∉ q i) → GridQueue.isInQueue s.items x = false

theorem represents_start : Represents ({} : QueueState ι α) (fun _ => []) where
  holds := fun _ => holds_nil _
  apart := fun _ _ _ h _ => absurd h List.not_mem_nil
  idle := fun _ _ => rfl

section Update

variable [DecidableEq ι]

/-- One of the queues has changed, and items of the others have not. -/
theorem Represents.update (h : s.Represents q) (i : ι) {items : α → QueueItem α}
    {queue : GridQueue α} {xs : List α} (hholds : Holds items queue xs)
    (hnew : ∀ x ∈ xs, ∀ j, x ∈ q j → j = i) (hsame : ∀ x j, x ∈ q j → j ≠ i → items x = s.items x)
    (hidle : ∀ x, x ∉ xs → (∀ j, j ≠ i → x ∉ q j) → GridQueue.isInQueue items x = false) :
    Represents { items := items, queues := Function.update s.queues i queue }
      (Function.update q i xs) := by
  refine ⟨?_, ?_, ?_⟩
  · intro j
    by_cases hj : j = i
    · rw [hj, Function.update_self]
      show Holds items (Function.update s.queues i queue i) xs
      rw [Function.update_self]
      exact hholds
    · rw [Function.update_of_ne hj]
      show Holds items (Function.update s.queues i queue j) (q j)
      rw [Function.update_of_ne hj]
      exact (h.holds j).congr fun x hx => hsame x j hx hj
  · intro j k x hj hk
    by_cases hji : j = i
    · by_cases hki : k = i
      · rw [hji, hki]
      · rw [hji, Function.update_self] at hj
        rw [Function.update_of_ne hki] at hk
        rw [hji, hnew x hj k hk]
    · rw [Function.update_of_ne hji] at hj
      by_cases hki : k = i
      · rw [hki, Function.update_self] at hk
        rw [hki, hnew x hk j hj]
      · rw [Function.update_of_ne hki] at hk
        exact h.apart j k x hj hk
  · intro x hx
    refine hidle x ?_ ?_
    · have hi := hx i
      rwa [Function.update_self] at hi
    · intro j hj
      have hother := hx j
      rwa [Function.update_of_ne hj] at hother

end Update

theorem isInQueue_congr {items items' : α → QueueItem α} {y : α} (h : items' y = items y) :
    GridQueue.isInQueue items' y = GridQueue.isInQueue items y := by
  rw [GridQueue.isInQueue, GridQueue.isInQueue, h]

theorem isInQueue_eq_false {items : α → QueueItem α} {y : α} (h : items y = {}) :
    GridQueue.isInQueue items y = false := by
  rw [GridQueue.isInQueue, h]
  rfl

/-- The marked items are those of the sequences. -/
theorem Represents.isInQueue_iff (h : s.Represents q) (x : α) :
    GridQueue.isInQueue s.items x = true ↔ ∃ j, x ∈ q j := by
  constructor
  · intro hmark
    by_contra hnone
    rw [h.idle x (fun j hj => hnone ⟨j, hj⟩)] at hmark
    exact Bool.noConfusion hmark
  · rintro ⟨j, hj⟩
    exact (h.holds j).linked.isInQueue hj

variable [DecidableEq ι] [DecidableEq α]

theorem Represents.push (h : s.Represents q) (fuel : Nat) (i : ι) {x : α} (hx : ∀ j, x ∉ q j) :
    ∃ s', s.call fuel (.push i x) = some (.ok (s', .nothing)) ∧
      s'.Represents (Function.update q i (q i ++ [x])) := by
  obtain ⟨items', queue', hpush, hholds, hsame⟩ := push_ok (h.holds i) (h.idle x hx)
  refine ⟨{ items := items', queues := Function.update s.queues i queue' }, ?_,
    h.update i hholds ?_ ?_ ?_⟩
  · rw [call, hpush]
    rfl
  · intro y hy j hj
    rcases List.mem_append.mp hy with hi | hlast
    · exact h.apart j i y hj hi
    · rw [List.mem_singleton.mp hlast] at hj
      exact absurd hj (hx j)
  · intro y j hj hne
    refine hsame y fun hy => ?_
    rcases List.mem_append.mp hy with hi | hlast
    · exact hne (h.apart j i y hj hi)
    · rw [List.mem_singleton.mp hlast] at hj
      exact hx j hj
  · intro y hy hothers
    refine (isInQueue_congr (hsame y hy)).trans (h.idle y ?_)
    intro j hj
    by_cases hji : j = i
    · exact hy (List.mem_append_left [x] (hji ▸ hj))
    · exact hothers j hji hj

/-- An item is out of its queue, whose other items are still there in their order. -/
theorem Represents.without (h : s.Represents q) (i : ι) {as bs : List α} {x : α}
    (hq : q i = as ++ x :: bs) {items : α → QueueItem α} {queue : GridQueue α}
    (hholds : Holds items queue (as ++ bs)) (hout : items x = {})
    (hsame : ∀ y, y ∉ as ++ x :: bs → items y = s.items y) :
    Represents { items := items, queues := Function.update s.queues i queue }
      (Function.update q i (as ++ bs)) := by
  have hsub : ∀ y ∈ as ++ bs, y ∈ q i := by
    intro y hy
    rw [hq]
    rcases List.mem_append.mp hy with ha | hb
    · exact List.mem_append_left _ ha
    · exact List.mem_append_right _ (List.mem_cons_of_mem x hb)
  have hothers : ∀ y, y ∉ as ++ bs → y ≠ x → y ∉ q i := by
    intro y hy hne hmem
    rw [hq] at hmem
    refine hy ?_
    rcases List.mem_append.mp hmem with ha | hb
    · exact List.mem_append_left _ ha
    · exact List.mem_append_right _ ((List.mem_cons.mp hb).resolve_left hne)
  rw [← hq] at hsame
  refine h.update i hholds ?_ ?_ ?_
  · intro y hy j hj
    exact h.apart j i y hj (hsub y hy)
  · intro y j hj hne
    exact hsame y fun hy => hne (h.apart j i y hj hy)
  · intro y hy hnone
    by_cases hyx : y = x
    · rw [hyx]
      exact isInQueue_eq_false hout
    · refine (isInQueue_congr (hsame y (hothers y hy hyx))).trans (h.idle y ?_)
      intro j hj
      by_cases hji : j = i
      · exact hothers y hy hyx (hji ▸ hj)
      · exact hnone j hji hj

theorem Represents.pop (h : s.Represents q) (fuel : Nat) (i : ι) :
    ∃ s', s.call fuel (.pop i) = some (.ok (s', .item (q i).head?)) ∧
      s'.Represents (Function.update q i (q i).tail) := by
  cases hq : q i with
  | nil =>
    refine ⟨s, ?_, ?_⟩
    · have hhead := (h.holds i).head
      rw [hq] at hhead
      rw [call, GridQueue.pop, hhead, List.head?_nil]
      simp only [ok_bind, pure_eq_ok, Function.update_eq_self]
    · rw [List.tail_nil, ← hq, Function.update_eq_self]
      exact h
  | cons x xs =>
    have hholds := h.holds i
    rw [hq] at hholds
    obtain ⟨items', queue', hpop, hholds', hout, hsame⟩ := pop_ok hholds
    refine ⟨{ items := items', queues := Function.update s.queues i queue' }, ?_, ?_⟩
    · rw [call, hpop]
      rfl
    · have hnil : q i = [] ++ x :: xs := hq
      refine h.without i hnil hholds' hout fun y hy => hsame y ?_
      rintro rfl
      exact hy List.mem_cons_self

theorem Represents.remove (h : s.Represents q) {fuel : Nat} (i : ι) (x : α)
    (hfuel : (q i).length < fuel) :
    ∃ s', s.call fuel (.remove i x) = some (.ok (s', .nothing)) ∧
      s'.Represents (Function.update q i ((q i).erase x)) := by
  by_cases hx : x ∈ q i
  · obtain ⟨as, bs, hq, hxas, herase⟩ : ∃ as bs, q i = as ++ x :: bs ∧ x ∉ as ∧
        (q i).erase x = as ++ bs := by
      obtain ⟨as, bs, hnot, heq, herase⟩ := List.exists_erase_eq hx
      exact ⟨as, bs, heq, hnot, herase⟩
    have hholds := h.holds i
    rw [hq] at hholds
    rw [hq, List.length_append] at hfuel
    obtain ⟨items', queue', hremove, hholds', hout, hsame⟩ :=
      remove_ok hholds (Nat.lt_of_le_of_lt (Nat.le_add_right _ _) hfuel)
    refine ⟨{ items := items', queues := Function.update s.queues i queue' }, ?_, ?_⟩
    · rw [call, hremove]
      rfl
    · rw [herase]
      exact h.without i hq hholds' hout hsame
  · refine ⟨s, ?_, ?_⟩
    · rw [call, remove_not_mem (h.holds i) hx hfuel]
      simp only [Option.map_some, ok_bind, pure_eq_ok, Function.update_eq_self]
    · rw [List.erase_of_not_mem hx, Function.update_eq_self]
      exact h

/-- A call does to the queues what it does to the sequences. -/
theorem Represents.call {c : QueueCall ι α} {q' : ι → List α} {r : QueueResult α} {fuel : Nat}
    (h : s.Represents q) (hfuel : ∀ i, (q i).length < fuel) (hstep : FifoStep q c q' r) :
    ∃ s', s.call fuel c = some (.ok (s', r)) ∧ s'.Represents q' := by
  cases hstep with
  | push i x hx => exact h.push fuel i hx
  | pop i => exact h.pop fuel i
  | remove i x => exact h.remove i x (hfuel i)
  | empty i =>
    refine ⟨s, ?_, h⟩
    rw [QueueState.call, GridQueue.empty, (h.holds i).head]
    cases q i with
    | nil => rfl
    | cons x xs => rfl
  | isInQueue x b hb =>
    refine ⟨s, ?_, h⟩
    rw [QueueState.call, Bool.eq_iff_iff.mpr ((h.isInQueue_iff x).trans hb.symm)]

/-! ## Runs -/

omit [DecidableEq ι] [DecidableEq α] in
/-- A walk with turns enough comes by all items that are linked. -/
theorem walk_eq {items : α → QueueItem α} {xs : List α} (h : Linked items xs none) :
    ∀ fuel, xs.length < fuel → walk items fuel xs.head? = some (.ok xs) := by
  induction xs with
  | nil =>
    intro fuel hfuel
    obtain ⟨fuel, rfl⟩ : ∃ k, fuel = k + 1 := ⟨fuel - 1, by omega⟩
    rfl
  | cons a rest ih =>
    intro fuel hfuel
    obtain ⟨fuel, rfl⟩ : ∃ k, fuel = k + 1 := ⟨fuel - 1, by omega⟩
    obtain ⟨ha, hrest⟩ := h
    rw [Option.or_none] at ha
    rw [List.head?_cons, walk, ha]
    simp only [ih hrest fuel (Nat.lt_of_succ_lt_succ hfuel), Option.map_some]
    rfl

/-- The queues are those of the sequences: their heads, their tails and what a walk comes by.
The marked items are those of the sequences. -/
structure Reads (s : QueueState ι α) (q : ι → List α) : Prop where
  head : ∀ i, (s.queues i).head = (q i).head?
  tail : ∀ i, (s.queues i).tail = (q i).getLast?
  walk : ∀ i fuel, (q i).length < fuel →
    QueueState.walk s.items fuel (s.queues i).head = some (.ok (q i))
  marked : ∀ x, GridQueue.isInQueue s.items x = true ↔ ∃ i, x ∈ q i

omit [DecidableEq ι] [DecidableEq α] in
theorem Represents.reads (h : s.Represents q) : s.Reads q where
  head := fun i => (h.holds i).head
  tail := fun i => (h.holds i).tail
  walk := by
    intro i fuel hfuel
    rw [(h.holds i).head]
    exact walk_eq (h.holds i).linked fuel hfuel
  marked := h.isInQueue_iff

/-- A call makes no sequence longer by more than one. -/
theorem length_step_le {c : QueueCall ι α} {q' : ι → List α} {r : QueueResult α}
    (hstep : FifoStep q c q' r) (i : ι) : (q' i).length ≤ (q i).length + 1 := by
  have hupdate : ∀ (j : ι) (xs : List α), xs.length ≤ (q j).length + 1 →
      (Function.update q j xs i).length ≤ (q i).length + 1 := by
    intro j xs hle
    by_cases hij : i = j
    · rw [hij, Function.update_self]
      exact hle
    · rw [Function.update_of_ne hij]
      exact Nat.le_succ _
  cases hstep with
  | push j x hx => exact hupdate j _ (by rw [List.length_append]; exact Nat.le_refl _)
  | pop j => exact hupdate j _ (by rw [List.length_tail]; omega)
  | remove j x => exact hupdate j _ (Nat.le_succ_of_le List.length_erase_le)
  | empty j => exact Nat.le_succ _
  | isInQueue x b hb => exact Nat.le_succ _

theorem Represents.calls {fuel : Nat} {cs : List (QueueCall ι α)} {q q' : ι → List α}
    {rs : List (QueueResult α)} (hrun : FifoRun q cs q' rs) :
    ∀ s : QueueState ι α, s.Represents q → (∀ i, (q i).length + cs.length < fuel) →
      ∃ s', s.calls fuel cs = some (.ok (s', rs)) ∧ s'.Represents q' := by
  induction hrun with
  | nil q =>
    intro s h _
    exact ⟨s, rfl, h⟩
  | @cons q q₁ q₂ c r cs rs hstep hrest ih =>
    intro s h hfuel
    have hlt : ∀ i, (q i).length < fuel := fun i =>
      Nat.lt_of_le_of_lt (Nat.le_add_right _ _) (hfuel i)
    obtain ⟨s₁, hfirst, h₁⟩ := h.call hlt hstep
    obtain ⟨s₂, hsecond, h₂⟩ := ih s₁ h₁ (by
      intro i
      have hle := length_step_le hstep i
      have hbound := hfuel i
      rw [List.length_cons] at hbound
      omega)
    refine ⟨s₂, ?_, h₂⟩
    rw [QueueState.calls, hfirst]
    simp only [hsecond, Option.map_some]
    rfl

/-- Calls on queues return what they return on sequences, and the queues read as the sequences. -/
theorem queues_refine {cs : List (QueueCall ι α)} {q : ι → List α} {rs : List (QueueResult α)}
    (h : FifoRun (fun _ => []) cs q rs) (fuel : Nat) (hfuel : cs.length < fuel) :
    ∃ s, QueueState.calls fuel {} cs = some (.ok (s, rs)) ∧ s.Reads q := by
  obtain ⟨s, hcalls, hrep⟩ := Represents.calls h {} represents_start
    (fun _ => by rw [List.length_nil, Nat.zero_add]; exact hfuel)
  exact ⟨s, hcalls, hrep.reads⟩

/-- The last of two items is not in another queue, is removed from its own one and is pushed to
the other one. -/
theorem queues_refine_again : ∃ (s : QueueState Bool Nat) (q : Bool → List Nat),
    QueueState.calls 7 {}
        [.push true 1, .push true 2, .remove false 2, .remove true 2, .push false 2, .pop true] =
      some (.ok (s, [.nothing, .nothing, .nothing, .nothing, .nothing, .item (some 1)])) ∧
    s.Reads q ∧ q true = [] ∧ q false = [2] := by
  obtain ⟨s, hcalls, hreads⟩ := queues_refine
    (.cons (.push true 1 (by decide)) (.cons (.push true 2 (by decide))
      (.cons (.remove false 2) (.cons (.remove true 2) (.cons (.push false 2 (by decide))
        (.cons (.pop true) (.nil _))))))) 7 (by decide)
  exact ⟨s, _, hcalls, hreads, rfl, rfl⟩

end QueueState

end GridMq
