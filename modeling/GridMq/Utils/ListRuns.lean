import GridMq.Utils.List

set_option autoImplicit false

/-!
# Sequences of calls on a list (`src/utils/list.c`)

A list and its items, and the sequence that they stand for.  Each call does to the list what it
does to the sequence, and returns the same.
-/

namespace GridMq

/-! ## Calls -/

/-- A list with the items there are. -/
structure ListState (α : Type) where
  items : α → ListItem α := fun _ => {}
  list : GridList α := {}

/-- A call. -/
inductive ListCall (α : Type) where
  /-- `it` is the item in front of which it goes, or the end of the list -/
  | insert (item : α) (it : Option α)
  | erase (item : α)
  | begin
  | end_
  | prev (it : Option α)
  | next (it : α)
  | empty
  | isInList (item : α)
  deriving DecidableEq, Repr

/-- What a call returns. -/
inductive ListResult (α : Type) where
  | nothing
  | item (it : Option α)
  | flag (value : Bool)
  deriving DecidableEq, Repr

namespace GridList

variable {α : Type} [DecidableEq α]

/-- `grid_list_empty`. -/
def listEmpty (self : GridList α) : Bool := self.first.isNone

/-- `grid_list_begin`. -/
def listBegin (self : GridList α) : Option α := self.first

/-- `grid_list_end`. -/
def listEnd (_ : GridList α) : Option α := none

/-- `grid_list_prev`. -/
def listPrev (items : α → ListItem α) (self : GridList α) (it : Option α) :
    Except Abort (Option α) :=
  match it with
  | none => .ok self.last
  | some a =>
      match (items a).prev with
      | none => .error .assertion
      | some p => .ok p

/-- `grid_list_next`. -/
def listNext (items : α → ListItem α) (it : α) : Except Abort (Option α) :=
  match (items it).next with
  | none => .error .assertion
  | some n => .ok n

end GridList

namespace ListState

variable {α : Type} [DecidableEq α]

open GridList

/-- One call. -/
def call (self : ListState α) : ListCall α → Except Abort (ListState α × ListResult α)
  | .insert item it => do
      let (items, list) ← GridList.insert self.items self.list item it
      return ({ items := items, list := list }, .nothing)
  | .erase item => do
      let (items, list, next) ← GridList.erase self.items self.list item
      return ({ items := items, list := list }, .item next)
  | .begin => .ok (self, .item (listBegin self.list))
  | .end_ => .ok (self, .item (listEnd self.list))
  | .prev it => do
      let p ← listPrev self.items self.list it
      return (self, .item p)
  | .next it => do
      let n ← listNext self.items it
      return (self, .item n)
  | .empty => .ok (self, .flag (listEmpty self.list))
  | .isInList item => .ok (self, .flag (GridList.isInList self.items item))

/-- Calls one after the other, with what they return. -/
def calls (self : ListState α) : List (ListCall α) →
    Except Abort (ListState α × List (ListResult α))
  | [] => .ok (self, [])
  | c :: cs => do
      let (self, r) ← self.call c
      let (self, rs) ← self.calls cs
      return (self, r :: rs)

/-- What a loop that goes from item to item comes by, with a bound on its turns. -/
def traverse (step : α → Except Abort (Option α)) :
    Nat → Option α → Option (Except Abort (List α))
  | 0, _ => none
  | _ + 1, none => some (.ok [])
  | fuel + 1, some a =>
      match step a with
      | .error e => some (.error e)
      | .ok it => (traverse step fuel it).map fun r => r.map (a :: ·)

/-- From `grid_list_begin` on by `grid_list_next`. -/
def forwards (self : ListState α) (fuel : Nat) : Option (Except Abort (List α)) :=
  traverse (listNext self.items) fuel (listBegin self.list)

/-- From the end on by `grid_list_prev`. -/
def backwards (self : ListState α) (fuel : Nat) : Option (Except Abort (List α)) :=
  match listPrev self.items self.list (listEnd self.list) with
  | .error e => some (.error e)
  | .ok it => traverse (fun a => listPrev self.items self.list (some a)) fuel it

end ListState

/-! ## Sequences -/

section Sequences

variable {α : Type} [DecidableEq α]

/-- A sequence with an element in front of another one. -/
def insertBefore (x y : α) : List α → List α
  | [] => []
  | a :: rest => if a = y then x :: a :: rest else a :: insertBefore x y rest

/-- The element behind another one. -/
def successor (x : α) : List α → Option α
  | [] => none
  | a :: rest => if a = x then rest.head? else successor x rest

/-- The element in front of another one. -/
def predecessor (x : α) (xs : List α) : Option α := successor x xs.reverse

/-- What a call does to a sequence, where it is one of those that may be made. -/
def seqCall (xs : List α) : ListCall α → Option (List α × ListResult α)
  | .insert x none => if x ∈ xs then none else some (xs ++ [x], .nothing)
  | .insert x (some y) =>
      if x ∈ xs ∨ y ∉ xs then none else some (insertBefore x y xs, .nothing)
  | .erase x => if x ∈ xs then some (xs.erase x, .item (successor x xs)) else none
  | .begin => some (xs, .item xs.head?)
  | .end_ => some (xs, .item none)
  | .prev none => some (xs, .item xs.getLast?)
  | .prev (some x) => if x ∈ xs then some (xs, .item (predecessor x xs)) else none
  | .next x => if x ∈ xs then some (xs, .item (successor x xs)) else none
  | .empty => some (xs, .flag xs.isEmpty)
  | .isInList x => some (xs, .flag (decide (x ∈ xs)))

/-- Calls one after the other. -/
def seqCalls (xs : List α) : List (ListCall α) → Option (List α × List (ListResult α))
  | [] => some (xs, [])
  | c :: cs => do
      let (xs, r) ← seqCall xs c
      let (xs, rs) ← seqCalls xs cs
      return (xs, r :: rs)

variable {xs as bs : List α} {x y : α}

theorem insertBefore_eq (x : α) (hy : y ∉ as) :
    insertBefore x y (as ++ y :: bs) = as ++ x :: y :: bs := by
  induction as with
  | nil => rw [List.nil_append, insertBefore, if_pos rfl, List.nil_append]
  | cons a as ih =>
    rw [List.mem_cons, not_or] at hy
    rw [List.cons_append, insertBefore, if_neg (fun heq => hy.1 heq.symm), ih hy.2,
      List.cons_append]

theorem successor_eq (hx : x ∉ as) : successor x (as ++ x :: bs) = bs.head? := by
  induction as with
  | nil => rw [List.nil_append, successor, if_pos rfl]
  | cons a as ih =>
    rw [List.mem_cons, not_or] at hx
    rw [List.cons_append, successor, if_neg (fun heq => hx.1 heq.symm), ih hx.2]

theorem predecessor_eq (hx : x ∉ bs) : predecessor x (as ++ x :: bs) = as.getLast? := by
  have hreverse : (as ++ x :: bs).reverse = bs.reverse ++ x :: as.reverse := by simp
  rw [predecessor, hreverse, successor_eq (by simpa using hx), List.head?_reverse]

end Sequences

/-! ## The list stands for the sequence -/

namespace ListState

variable {α : Type} [DecidableEq α] {s : ListState α} {xs : List α}

open GridList

/-- The list consists of the elements of the sequence, and no other item is marked. -/
structure Represents (s : ListState α) (xs : List α) : Prop where
  holds : Holds s.items s.list xs
  idle : ∀ x, x ∉ xs → GridList.isInList s.items x = false

omit [DecidableEq α] in
theorem represents_start : Represents ({} : ListState α) [] where
  holds := holds_nil _
  idle := fun _ _ => rfl

omit [DecidableEq α] in
/-- The links of an item. -/
theorem Represents.links {as bs : List α} {x : α} (h : s.Represents (as ++ x :: bs)) :
    s.items x = { next := some bs.head?, prev := some as.getLast? } := by
  obtain ⟨-, hx, -⟩ := (linked_append as (x :: bs)).mp h.holds.linked
  rw [Option.or_none, Option.or_none] at hx
  exact hx

omit [DecidableEq α] in
theorem isInList_congr {items items' : α → ListItem α} {y : α} (h : items' y = items y) :
    GridList.isInList items' y = GridList.isInList items y := by
  rw [GridList.isInList, GridList.isInList, h]

omit [DecidableEq α] in
theorem isInList_eq_false {items : α → ListItem α} {y : α} (h : items y = {}) :
    GridList.isInList items y = false := by
  rw [GridList.isInList, h]
  rfl

omit [DecidableEq α] in
/-- A member is in one place of the sequence. -/
theorem Represents.place {x : α} (h : s.Represents xs) (hx : x ∈ xs) :
    ∃ as bs, xs = as ++ x :: bs ∧ x ∉ as ∧ x ∉ bs := by
  obtain ⟨as, bs, rfl⟩ := List.append_of_mem hx
  have hnodup := h.holds.nodup
  rw [List.nodup_middle, List.nodup_cons, List.mem_append, not_or] at hnodup
  exact ⟨as, bs, rfl, hnodup.1.1, hnodup.1.2⟩

/-- An item is put in front of another one, or at the end. -/
theorem Represents.insert {as bs : List α} {x : α} (h : s.Represents (as ++ bs))
    (hx : x ∉ as ++ bs) : ∃ s', s.call (.insert x bs.head?) = .ok (s', .nothing) ∧
      s'.Represents (as ++ x :: bs) := by
  obtain ⟨items', l', hinsert, hholds, hsame⟩ := insert_ok h.holds (h.idle x hx)
  have hother : ∀ y, y ∉ as ++ x :: bs → y ∉ as ++ bs := by
    intro y hy hmem
    refine hy ?_
    rcases List.mem_append.mp hmem with ha | hb
    · exact List.mem_append_left _ ha
    · exact List.mem_append_right _ (List.mem_cons_of_mem x hb)
  refine ⟨{ items := items', list := l' }, ?_, hholds, ?_⟩
  · rw [call, hinsert]
    rfl
  · intro y hy
    exact (isInList_congr (hsame y hy)).trans (h.idle y (hother y hy))

/-- An item is taken out, and is not marked any more. -/
theorem Represents.erase {as bs : List α} {x : α} (h : s.Represents (as ++ x :: bs)) :
    ∃ s', s.call (.erase x) = .ok (s', .item bs.head?) ∧ s'.Represents (as ++ bs) := by
  obtain ⟨items', l', herase, hholds, hout, hsame⟩ := erase_ok h.holds
  have hother : ∀ y, y ∉ as ++ bs → y ≠ x → y ∉ as ++ x :: bs := by
    intro y hy hne hmem
    refine hy ?_
    rcases List.mem_append.mp hmem with ha | hb
    · exact List.mem_append_left _ ha
    · exact List.mem_append_right _ ((List.mem_cons.mp hb).resolve_left hne)
  refine ⟨{ items := items', list := l' }, ?_, hholds, ?_⟩
  · rw [call, herase]
    rfl
  · intro y hy
    by_cases hne : y = x
    · rw [hne]
      exact isInList_eq_false hout
    · exact (isInList_congr (hsame y (hother y hy hne))).trans (h.idle y (hother y hy hne))

/-- A call that may be made does to the list what it does to the sequence. -/
theorem Represents.call {c : ListCall α} {xs' : List α} {r : ListResult α}
    (h : s.Represents xs) (hcall : seqCall xs c = some (xs', r)) :
    ∃ s', s.call c = .ok (s', r) ∧ s'.Represents xs' := by
  cases c with
  | insert x it =>
    cases it with
    | none =>
      by_cases hx : x ∈ xs
      · simp [seqCall, hx] at hcall
      · simp only [seqCall, if_neg hx, Option.some.injEq, Prod.mk.injEq] at hcall
        obtain ⟨rfl, rfl⟩ := hcall
        have hend : s.Represents (xs ++ []) := by
          rw [List.append_nil]
          exact h
        exact hend.insert (by rwa [List.append_nil])
    | some y =>
      by_cases hxy : x ∈ xs ∨ y ∉ xs
      · simp [seqCall, hxy] at hcall
      · simp only [seqCall, if_neg hxy, Option.some.injEq, Prod.mk.injEq] at hcall
        obtain ⟨rfl, rfl⟩ := hcall
        rw [not_or, not_not] at hxy
        obtain ⟨as, bs, rfl, hy, -⟩ := h.place hxy.2
        rw [insertBefore_eq x hy]
        exact h.insert hxy.1
  | erase x =>
    by_cases hx : x ∈ xs
    · simp only [seqCall, if_pos hx, Option.some.injEq, Prod.mk.injEq] at hcall
      obtain ⟨rfl, rfl⟩ := hcall
      obtain ⟨as, bs, rfl, hxa, -⟩ := h.place hx
      rw [successor_eq hxa, List.erase_append_right _ hxa, List.erase_cons_head]
      exact h.erase
    · simp [seqCall, hx] at hcall
  | begin =>
    simp only [seqCall, Option.some.injEq, Prod.mk.injEq] at hcall
    obtain ⟨rfl, rfl⟩ := hcall
    exact ⟨s, by rw [ListState.call, listBegin, h.holds.first], h⟩
  | end_ =>
    simp only [seqCall, Option.some.injEq, Prod.mk.injEq] at hcall
    obtain ⟨rfl, rfl⟩ := hcall
    exact ⟨s, rfl, h⟩
  | prev it =>
    cases it with
    | none =>
      simp only [seqCall, Option.some.injEq, Prod.mk.injEq] at hcall
      obtain ⟨rfl, rfl⟩ := hcall
      refine ⟨s, ?_, h⟩
      rw [ListState.call, listPrev, h.holds.last]
      rfl
    | some x =>
      by_cases hx : x ∈ xs
      · simp only [seqCall, if_pos hx, Option.some.injEq, Prod.mk.injEq] at hcall
        obtain ⟨rfl, rfl⟩ := hcall
        obtain ⟨as, bs, rfl, -, hxb⟩ := h.place hx
        refine ⟨s, ?_, h⟩
        rw [ListState.call, listPrev, h.links, predecessor_eq hxb]
        rfl
      · simp [seqCall, hx] at hcall
  | next x =>
    by_cases hx : x ∈ xs
    · simp only [seqCall, if_pos hx, Option.some.injEq, Prod.mk.injEq] at hcall
      obtain ⟨rfl, rfl⟩ := hcall
      obtain ⟨as, bs, rfl, hxa, -⟩ := h.place hx
      refine ⟨s, ?_, h⟩
      rw [ListState.call, listNext, h.links, successor_eq hxa]
      rfl
    · simp [seqCall, hx] at hcall
  | empty =>
    simp only [seqCall, Option.some.injEq, Prod.mk.injEq] at hcall
    obtain ⟨rfl, rfl⟩ := hcall
    refine ⟨s, ?_, h⟩
    rw [ListState.call, listEmpty, h.holds.first]
    cases xs with
    | nil => rfl
    | cons x xs => rfl
  | isInList x =>
    simp only [seqCall, Option.some.injEq, Prod.mk.injEq] at hcall
    obtain ⟨rfl, rfl⟩ := hcall
    refine ⟨s, ?_, h⟩
    by_cases hx : x ∈ xs
    · rw [ListState.call, h.holds.linked.isInList hx, decide_eq_true hx]
    · rw [ListState.call, h.idle x hx, decide_eq_false hx]

/-! ## Loops over the items -/

omit [DecidableEq α] in
/-- A loop whose steps lead through a sequence comes by all of it. -/
theorem traverse_eq {step : α → Except Abort (Option α)} (ys : List α)
    (hstep : ∀ as y bs, ys = as ++ y :: bs → step y = .ok bs.head?) :
    ∀ fuel, ys.length < fuel → traverse step fuel ys.head? = some (.ok ys) := by
  induction ys with
  | nil =>
    intro fuel hfuel
    obtain ⟨fuel, rfl⟩ : ∃ k, fuel = k + 1 := ⟨fuel - 1, by omega⟩
    rfl
  | cons y ys ih =>
    intro fuel hfuel
    obtain ⟨fuel, rfl⟩ : ∃ k, fuel = k + 1 := ⟨fuel - 1, by omega⟩
    have hrest := ih (fun as z bs heq => hstep (y :: as) z bs (by rw [heq]; rfl)) fuel
      (Nat.lt_of_succ_lt_succ hfuel)
    rw [List.head?_cons, traverse, hstep [] y ys rfl]
    simp only [hrest, Option.map_some]
    rfl

omit [DecidableEq α] in
theorem Represents.forwards (h : s.Represents xs) {fuel : Nat} (hfuel : xs.length < fuel) :
    s.forwards fuel = some (.ok xs) := by
  rw [ListState.forwards, listBegin, h.holds.first]
  refine traverse_eq xs ?_ fuel hfuel
  rintro as y bs rfl
  rw [listNext, h.links]

omit [DecidableEq α] in
theorem Represents.backwards (h : s.Represents xs) {fuel : Nat} (hfuel : xs.length < fuel) :
    s.backwards fuel = some (.ok xs.reverse) := by
  rw [ListState.backwards, listEnd, listPrev, h.holds.last, ← List.head?_reverse]
  refine traverse_eq xs.reverse ?_ fuel (by rwa [List.length_reverse])
  intro as y bs heq
  have hxs : xs = bs.reverse ++ y :: as.reverse := by
    have hback := congrArg List.reverse heq
    rw [List.reverse_reverse] at hback
    rw [hback]
    simp
  subst hxs
  rw [listPrev, h.links, List.getLast?_reverse]

/-! ## Runs -/

/-- The list and its items are those of the sequence, read in both directions, and the items of
the sequence are those that are marked. -/
structure Reads (s : ListState α) (xs : List α) : Prop where
  forwards : ∀ fuel, xs.length < fuel → s.forwards fuel = some (.ok xs)
  backwards : ∀ fuel, xs.length < fuel → s.backwards fuel = some (.ok xs.reverse)
  marked : ∀ x, GridList.isInList s.items x = true ↔ x ∈ xs

omit [DecidableEq α] in
theorem Represents.reads (h : s.Represents xs) : s.Reads xs where
  forwards := fun _ hfuel => h.forwards hfuel
  backwards := fun _ hfuel => h.backwards hfuel
  marked := by
    intro x
    constructor
    · intro hmark
      by_contra hx
      rw [h.idle x hx] at hmark
      exact Bool.noConfusion hmark
    · exact h.holds.linked.isInList

theorem Represents.calls (cs : List (ListCall α)) :
    ∀ (s : ListState α) (xs xs' : List α) (rs : List (ListResult α)), s.Represents xs →
      seqCalls xs cs = some (xs', rs) →
      ∃ s', s.calls cs = .ok (s', rs) ∧ s'.Represents xs' := by
  induction cs with
  | nil =>
    intro s xs xs' rs h hcalls
    simp only [seqCalls, Option.some.injEq, Prod.mk.injEq] at hcalls
    obtain ⟨rfl, rfl⟩ := hcalls
    exact ⟨s, rfl, h⟩
  | cons c cs ih =>
    intro s xs xs' rs h hcalls
    obtain ⟨⟨xs₁, r⟩, hcall, hcalls⟩ := Option.bind_eq_some_iff.mp hcalls
    obtain ⟨⟨xs₂, rs'⟩, hrest, hcalls⟩ := Option.bind_eq_some_iff.mp hcalls
    cases hcalls
    obtain ⟨s₁, hfirst, h₁⟩ := h.call hcall
    obtain ⟨s₂, hsecond, h₂⟩ := ih s₁ xs₁ xs' rs' h₁ hrest
    refine ⟨s₂, ?_, h₂⟩
    rw [ListState.calls, hfirst, ok_bind]
    simp only
    rw [hsecond]
    rfl

/-- Calls on a list return what they return on a sequence, and the list reads as the sequence. -/
theorem calls_refine {cs : List (ListCall α)} {xs : List α} {rs : List (ListResult α)}
    (h : seqCalls [] cs = some (xs, rs)) :
    ∃ s, ListState.calls {} cs = .ok (s, rs) ∧ s.Reads xs := by
  obtain ⟨s, hcalls, hrep⟩ := Represents.calls cs {} [] xs rs represents_start h
  exact ⟨s, hcalls, hrep.reads⟩

/-- An item is inserted, taken out and inserted again in front of another one. -/
theorem calls_refine_again : ∃ s, ListState.calls {}
    [.insert 1 none, .insert 2 none, .erase 1, .insert 1 none, .insert 3 (some 1), .next 3] =
      .ok (s, [.nothing, .nothing, .item (some 2), .nothing, .nothing, .item (some 1)]) ∧
    s.Reads [2, 3, 1] :=
  calls_refine (by decide)

end ListState

end GridMq
