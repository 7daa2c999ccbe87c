import GridMq.Utils.Err
import Mathlib.Data.List.Nodup
import Mathlib.Logic.Function.Basic

set_option autoImplicit false

/-!
# Lists of items (`src/utils/list.c`)

The items of a list are parts of what is in it, and are linked in both directions.  `Holds` says
which items a list consists of; the operations are described by it.
-/

namespace GridMq

/-! ## The lists -/

/-- `struct grid_list_item`.  `none` is `GRID_LIST_NOTINLIST`, and `some none` is `NULL`. -/
structure ListItem (α : Type) where
  next : Option (Option α) := none
  prev : Option (Option α) := none
  deriving DecidableEq, Repr

/-- `struct grid_list`. -/
structure GridList (α : Type) where
  first : Option α := none
  last : Option α := none
  deriving DecidableEq, Repr

namespace GridList

variable {α : Type} [DecidableEq α]

/-- `grid_list_item_isinlist`. -/
def isInList (items : α → ListItem α) (item : α) : Bool := (items item).prev.isSome

/-- `if (p) p->next = to;` -/
def setNext (items : α → ListItem α) (p target : Option (Option α)) :
    Except Abort (α → ListItem α) :=
  match p with
  | none => .error .nullPointer
  | some none => .ok items
  | some (some a) => .ok (Function.update items a { items a with next := target })

/-- `if (p) p->prev = to;` -/
def setPrev (items : α → ListItem α) (p target : Option (Option α)) :
    Except Abort (α → ListItem α) :=
  match p with
  | none => .error .nullPointer
  | some none => .ok items
  | some (some a) => .ok (Function.update items a { items a with prev := target })

/-- `grid_list_insert`: an item is put in front of another one, or at the end. -/
def insert (items : α → ListItem α) (self : GridList α) (item : α) (it : Option α) :
    Except Abort ((α → ListItem α) × GridList α) := do
  gridAssert (isInList items item = false)
  let prev :=
    match it with
    | some i => (items i).prev
    | none => some self.last
  let items := Function.update items item { next := some it, prev := prev }
  let items ← setNext items prev (some (some item))
  let items ← setPrev items (some it) (some (some item))
  return (items,
    { first := if self.first = none ∨ self.first = it then some item else self.first
      last := if it = none then some item else self.last })

/-- `grid_list_erase`: it returns the next item, too. -/
def erase (items : α → ListItem α) (self : GridList α) (item : α) :
    Except Abort ((α → ListItem α) × GridList α × Option α) :=
  match (items item).prev, (items item).next with
  | none, _ => .error .assertion
  | some _, none => .error .nullPointer
  | some prev, some next => do
      let items ← setNext items (some prev) (some next)
      let items ← setPrev items (some next) (some prev)
      return (Function.update items item {},
        { first := if prev = none then next else self.first
          last := if next = none then prev else self.last },
        next)

/-- A loop over the items that stops at the first one with a property.  There is a bound on its
turns. -/
def walk (items : α → ListItem α) (stop : α → Bool) :
    Nat → Option α → Option (Except Abort (Option α))
  | 0, _ => none
  | _ + 1, none => some (.ok none)
  | fuel + 1, some a =>
      if stop a then some (.ok (some a))
      else
        match (items a).next with
        | none => some (.error .assertion)
        | some next => walk items stop fuel next

/-! ## The items of a list -/

variable {items : α → ListItem α} {p n : Option α} {xs as bs : List α} {x : α}

/-- Some items in a row are linked to each other, to what is in front of them and to what is
behind. -/
def Linked (items : α → ListItem α) : Option α → List α → Option α → Prop
  | _, [], _ => True
  | prev, a :: rest, next =>
      items a = { next := some (rest.head?.or next), prev := some prev } ∧
        Linked items (some a) rest next

omit [DecidableEq α] in
theorem linked_append (as bs : List α) :
    Linked items p (as ++ bs) n ↔
      Linked items p as (bs.head?.or n) ∧ Linked items (as.getLast?.or p) bs n := by
  induction as generalizing p with
  | nil => simp [Linked]
  | cons a as ih =>
      have hlast : (a :: as).getLast?.or p = as.getLast?.or (some a) := by
        rw [List.getLast?_cons]
        cases as.getLast? <;> rfl
      rw [List.cons_append, Linked, Linked, ih, List.head?_append, Option.or_assoc, hlast, and_assoc]

omit [DecidableEq α] in
/-- Only the items themselves matter. -/
theorem Linked.congr {items' : α → ListItem α} (h : Linked items p xs n)
    (hsame : ∀ y ∈ xs, items' y = items y) : Linked items' p xs n := by
  induction xs generalizing p with
  | nil => trivial
  | cons a rest ih =>
      refine ⟨(hsame a List.mem_cons_self).trans h.1, ih h.2 ?_⟩
      intro y hy
      exact hsame y (List.mem_cons_of_mem a hy)

omit [DecidableEq α] in
theorem Linked.isInList (h : Linked items p xs n) (hx : x ∈ xs) : isInList items x = true := by
  induction xs generalizing p with
  | nil => exact absurd hx List.not_mem_nil
  | cons a rest ih =>
      rcases List.mem_cons.mp hx with rfl | hrest
      · rw [GridList.isInList, h.1]
        rfl
      · exact ih h.2 hrest

/-- The last one of some items gets another successor. -/
theorem setNext_getLast (h : Linked items p as n) (hnodup : as.Nodup) (m : Option α) :
    ∃ items', setNext items (some as.getLast?) (some m) = .ok items' ∧ Linked items' p as m ∧
      ∀ y ∉ as, items' y = items y := by
  rcases as.eq_nil_or_concat' with rfl | ⟨front, a, rfl⟩
  · exact ⟨items, rfl, trivial, fun _ _ => rfl⟩
  · rw [List.getLast?_concat]
    obtain ⟨hfront, ha, -⟩ := (linked_append front [a]).mp h
    have hnot : a ∉ front := fun hmem =>
      (List.nodup_append.mp hnodup).2.2 a hmem a (List.mem_singleton_self a) rfl
    refine ⟨_, rfl, (linked_append front [a]).mpr ⟨?_, ?_, trivial⟩, ?_⟩
    · refine hfront.congr fun y hy => Function.update_of_ne ?_ _ _
      rintro rfl
      exact hnot hy
    · rw [Function.update_self, ha]
      rfl
    · intro y hy
      refine Function.update_of_ne ?_ _ _
      rintro rfl
      exact hy (List.mem_append_right _ (List.mem_singleton_self y))

/-- The first one of some items gets another predecessor. -/
theorem setPrev_head (h : Linked items p bs n) (hnodup : bs.Nodup) (q : Option α) :
    ∃ items', setPrev items (some bs.head?) (some q) = .ok items' ∧ Linked items' q bs n ∧
      ∀ y ∉ bs, items' y = items y := by
  cases bs with
  | nil => exact ⟨items, rfl, trivial, fun _ _ => rfl⟩
  | cons b rest =>
      obtain ⟨hb, hrest⟩ := h
      refine ⟨_, rfl, ⟨?_, ?_⟩, ?_⟩
      · rw [Function.update_self, hb]
      · refine hrest.congr fun y hy => Function.update_of_ne ?_ _ _
        rintro rfl
        exact (List.nodup_cons.mp hnodup).1 hy
      · intro y hy
        refine Function.update_of_ne ?_ _ _
        rintro rfl
        exact hy List.mem_cons_self

/-- The items that a list consists of. -/
structure Holds (items : α → ListItem α) (l : GridList α) (xs : List α) : Prop where
  nodup : xs.Nodup
  first : l.first = xs.head?
  last : l.last = xs.getLast?
  linked : Linked items none xs none

omit [DecidableEq α] in
theorem holds_nil (items : α → ListItem α) : Holds items {} [] := ⟨List.nodup_nil, rfl, rfl, trivial⟩

omit [DecidableEq α] in
theorem Holds.congr {items' : α → ListItem α} {l : GridList α} (h : Holds items l xs)
    (hsame : ∀ y ∈ xs, items' y = items y) : Holds items' l xs :=
  ⟨h.nodup, h.first, h.last, h.linked.congr hsame⟩

/-! ## The operations -/

variable {l : GridList α}

/-- An item that is in no list is put where it should be. -/
theorem insert_ok (h : Holds items l (as ++ bs)) (hx : isInList items x = false) :
    ∃ items' l', insert items l x bs.head? = .ok (items', l') ∧ Holds items' l' (as ++ x :: bs) ∧
      ∀ y, y ∉ as ++ x :: bs → items' y = items y := by
  have hnot : x ∉ as ++ bs := fun hmem => by
    rw [h.linked.isInList hmem] at hx
    exact Bool.noConfusion hx
  obtain ⟨hnodupAs, hnodupBs, hdisjoint⟩ := List.nodup_append.mp h.nodup
  obtain ⟨hlinkAs, hlinkBs⟩ := (linked_append as bs).mp h.linked
  rw [Option.or_none] at hlinkBs
  have hprev : (match bs.head? with
      | some i => (items i).prev
      | none => some l.last) = some as.getLast? := by
    cases bs with
    | nil => exact congrArg some (h.last.trans (by rw [List.append_nil]))
    | cons b rest => exact congrArg ListItem.prev hlinkBs.1
  have hother : ∀ y ∈ as ++ bs, ∀ e, Function.update items x e y = items y := by
    intro y hy e
    refine Function.update_of_ne ?_ _ _
    rintro rfl
    exact hnot hy
  obtain ⟨items₁, hset₁, hlink₁, hsame₁⟩ := setNext_getLast
    (hlinkAs.congr fun y hy => hother y (List.mem_append_left bs hy)
      { next := some bs.head?, prev := some as.getLast? }) hnodupAs (some x)
  have hbs₁ : Linked items₁ as.getLast? bs none := by
    refine hlinkBs.congr fun y hy => ?_
    rw [hsame₁ y fun hyAs => hdisjoint y hyAs y hy rfl, hother y (List.mem_append_right as hy)]
  obtain ⟨items₂, hset₂, hlink₂, hsame₂⟩ := setPrev_head hbs₁ hnodupBs (some x)
  have hxAs : x ∉ as := fun hmem => hnot (List.mem_append_left bs hmem)
  have hxBs : x ∉ bs := fun hmem => hnot (List.mem_append_right as hmem)
  have hfirst : (if l.first = none ∨ l.first = bs.head? then some x else l.first) =
      (as ++ x :: bs).head? := by
    rw [h.first]
    cases as with
    | nil => exact if_pos (Or.inr rfl)
    | cons a rest =>
        refine if_neg ?_
        rintro (hnone | hhead)
        · exact Option.some_ne_none a hnone
        · exact hdisjoint a List.mem_cons_self a (List.mem_of_mem_head? hhead.symm) rfl
  have hlast : (if bs.head? = none then some x else l.last) = (as ++ x :: bs).getLast? := by
    rw [h.last]
    cases bs with
    | nil => rw [if_pos (show ([] : List α).head? = none from rfl), List.getLast?_concat]
    | cons b rest =>
        rw [if_neg (show ¬(b :: rest).head? = none from Option.some_ne_none b),
          List.getLast?_append, List.getLast?_append]
        rfl
  refine ⟨items₂, { first := (as ++ x :: bs).head?, last := (as ++ x :: bs).getLast? }, ?_,
    ⟨?_, rfl, rfl, ?_⟩, ?_⟩
  · rw [← hfirst, ← hlast]
    simp only [GridList.insert, gridAssert_pos hx, ok_bind, hprev, hset₁, hset₂, pure_eq_ok]
  · rw [List.nodup_middle]
    exact List.nodup_cons.mpr ⟨hnot, h.nodup⟩
  · refine (linked_append as (x :: bs)).mpr ⟨hlink₁.congr ?_, ?_, hlink₂⟩
    · intro y hy
      exact hsame₂ y fun hyBs => hdisjoint y hy y hyBs rfl
    · rw [hsame₂ x hxBs, hsame₁ x hxAs, Function.update_self, Option.or_none, Option.or_none]
  · intro y hy
    have hyAs : y ∉ as := fun hmem => hy (List.mem_append_left _ hmem)
    have hyBs : y ∉ bs := fun hmem => hy (List.mem_append_right _ (List.mem_cons_of_mem x hmem))
    rw [hsame₂ y hyBs, hsame₁ y hyAs]
    refine Function.update_of_ne ?_ _ _
    rintro rfl
    exact hy (List.mem_append_right _ List.mem_cons_self)

/-- An item that is in a list is put into no other one. -/
theorem insert_isInList {it : Option α} (hx : isInList items x = true) :
    insert items l x it = .error .assertion := by
  simp only [GridList.insert, gridAssert, hx, Bool.true_eq_false, if_false, error_bind]

/-- An item is taken out of its list. -/
theorem erase_ok (h : Holds items l (as ++ x :: bs)) :
    ∃ items' l', erase items l x = .ok (items', l', bs.head?) ∧ Holds items' l' (as ++ bs) ∧
      items' x = {} ∧ ∀ y, y ∉ as ++ x :: bs → items' y = items y := by
  have hnodup := h.nodup
  rw [List.nodup_middle, List.nodup_cons] at hnodup
  obtain ⟨hnot, hrest⟩ := hnodup
  obtain ⟨hnodupAs, hnodupBs, hdisjoint⟩ := List.nodup_append.mp hrest
  obtain ⟨hlinkAs, hx, hlinkBs⟩ := (linked_append as (x :: bs)).mp h.linked
  rw [Option.or_none, Option.or_none] at hx
  have hxAs : x ∉ as := fun hmem => hnot (List.mem_append_left bs hmem)
  have hxBs : x ∉ bs := fun hmem => hnot (List.mem_append_right as hmem)
  obtain ⟨items₁, hset₁, hlink₁, hsame₁⟩ := setNext_getLast hlinkAs hnodupAs bs.head?
  have hbs₁ : Linked items₁ (some x) bs none :=
    hlinkBs.congr fun y hy => hsame₁ y fun hyAs => hdisjoint y hyAs y hy rfl
  obtain ⟨items₂, hset₂, hlink₂, hsame₂⟩ := setPrev_head hbs₁ hnodupBs as.getLast?
  have hother : ∀ y ∈ as ++ bs, Function.update items₂ x {} y = items₂ y := by
    intro y hy
    refine Function.update_of_ne ?_ _ _
    rintro rfl
    exact hnot hy
  have hfirst : (if as.getLast? = none then bs.head? else l.first) = (as ++ bs).head? := by
    rw [h.first]
    cases as with
    | nil => rfl
    | cons a rest =>
        refine if_neg ?_
        rw [List.getLast?_cons]
        exact Option.some_ne_none _
  have hlast : (if bs.head? = none then as.getLast? else l.last) = (as ++ bs).getLast? := by
    rw [h.last]
    cases bs with
    | nil => rw [List.append_nil, if_pos (show ([] : List α).head? = none from rfl)]
    | cons b rest =>
        rw [if_neg (show ¬(b :: rest).head? = none from Option.some_ne_none b),
          List.getLast?_append, List.getLast?_append]
        rfl
  refine ⟨Function.update items₂ x {},
    { first := (as ++ bs).head?, last := (as ++ bs).getLast? }, ?_, ⟨hrest, rfl, rfl, ?_⟩,
    Function.update_self _ _ _, ?_⟩
  · rw [erase, hx]
    simp only
    rw [hset₁, ok_bind, hset₂, ok_bind, ← hfirst, ← hlast]
    rfl
  · refine (linked_append as bs).mpr ⟨?_, ?_⟩
    · rw [Option.or_none]
      refine hlink₁.congr fun y hy => ?_
      rw [hother y (List.mem_append_left bs hy)]
      exact hsame₂ y fun hyBs => hdisjoint y hy y hyBs rfl
    · rw [Option.or_none]
      exact hlink₂.congr fun y hy => hother y (List.mem_append_right as hy)
  · intro y hy
    have hyAs : y ∉ as := fun hmem => hy (List.mem_append_left _ hmem)
    have hyBs : y ∉ bs := fun hmem => hy (List.mem_append_right _ (List.mem_cons_of_mem x hmem))
    have hyx : y ≠ x := by
      rintro rfl
      exact hy (List.mem_append_right _ List.mem_cons_self)
    rw [Function.update_of_ne hyx, hsame₂ y hyBs, hsame₁ y hyAs]

omit [DecidableEq α] in
/-- A loop with turns enough finds the first item with the property. -/
theorem Linked.walk_eq (h : Linked items p xs none) (stop : α → Bool) {fuel : Nat}
    (hfuel : xs.length < fuel) : walk items stop fuel xs.head? = some (.ok (xs.find? stop)) := by
  induction xs generalizing p fuel with
  | nil =>
      obtain ⟨fuel, rfl⟩ : ∃ k, fuel = k + 1 := ⟨fuel - 1, by omega⟩
      rfl
  | cons a rest ih =>
      obtain ⟨fuel, rfl⟩ : ∃ k, fuel = k + 1 := ⟨fuel - 1, by omega⟩
      rw [List.head?_cons, walk, List.find?_cons]
      cases hstop : stop a with
      | true => rfl
      | false =>
          rw [if_neg Bool.false_ne_true, h.1, Option.or_none]
          exact ih h.2 (Nat.lt_of_succ_lt_succ hfuel)

omit [DecidableEq α] in
/-- More turns change nothing once the loop has ended. -/
theorem walk_mono {stop : α → Bool} {fuel more : Nat} {it : Option α}
    {r : Except Abort (Option α)} (h : walk items stop fuel it = some r) (hle : fuel ≤ more) :
    walk items stop more it = some r := by
  induction fuel generalizing it more with
  | zero => exact absurd h (by simp [walk])
  | succ fuel ih =>
      obtain ⟨more, rfl⟩ : ∃ k, more = k + 1 := ⟨more - 1, by omega⟩
      cases it with
      | none => exact h
      | some a =>
          rw [walk] at h ⊢
          by_cases hstop : stop a = true
          · rw [if_pos hstop] at h ⊢
            exact h
          · rw [if_neg hstop] at h ⊢
            cases hnext : (items a).next with
            | none =>
                rw [hnext] at h
                exact h
            | some next =>
                rw [hnext] at h
                exact ih h (Nat.le_of_succ_le_succ hle)

omit [DecidableEq α] in
/-- Whatever the bound on the turns is, the loop finds nothing else. -/
theorem Linked.walk_some (h : Linked items p xs none) (stop : α → Bool) {fuel : Nat}
    {r : Except Abort (Option α)} (hwalk : walk items stop fuel xs.head? = some r) :
    r = .ok (xs.find? stop) := by
  have hmore := walk_mono hwalk (Nat.le_max_left fuel (xs.length + 1))
  rw [h.walk_eq stop (Nat.lt_of_succ_le (Nat.le_max_right fuel (xs.length + 1)))] at hmore
  exact (Option.some.inj hmore).symm

/-! ## Lists that share their items -/

variable {ι : Type} {ls : ι → GridList α} {lists : ι → List α} {i : ι}

/-- What some lists consist of, where each item is in one of them at most. -/
structure Family (items : α → ListItem α) (ls : ι → GridList α) (lists : ι → List α) : Prop where
  holds : ∀ i, Holds items (ls i) (lists i)
  disjoint : ∀ i j x, x ∈ lists i → x ∈ lists j → i = j
  idle : ∀ x, (∀ i, x ∉ lists i) → isInList items x = false

omit [DecidableEq α] in
theorem Family.isInList (h : Family items ls lists) (hx : x ∈ lists i) :
    isInList items x = true := (h.holds i).linked.isInList hx

omit [DecidableEq α] in
/-- An item that is in a list is in one of these. -/
theorem Family.exists_mem (h : Family items ls lists) (hx : GridList.isInList items x = true) :
    ∃ i, x ∈ lists i := by
  by_contra hnone
  rw [not_exists] at hnone
  rw [h.idle x hnone] at hx
  exact Bool.noConfusion hx

omit [DecidableEq α] in
/-- What changes in a family when one of its lists does. -/
theorem Family.update [DecidableEq ι] (h : Family items ls lists) {items' : α → ListItem α}
    {l' : GridList α} {xs' : List α} (hl' : Holds items' l' xs')
    (hsame : ∀ j, j ≠ i → ∀ y ∈ lists j, y ∉ xs' ∧ items' y = items y)
    (hidle : ∀ y, y ∉ xs' → (∀ j, j ≠ i → y ∉ lists j) → GridList.isInList items' y = false) :
    Family items' (Function.update ls i l') (Function.update lists i xs') := by
  refine ⟨fun j => ?_, fun j k y hj hk => ?_, fun y hy => hidle y ?_ fun j hj => ?_⟩
  · by_cases hji : j = i
    · rw [hji, Function.update_self, Function.update_self]
      exact hl'
    · rw [Function.update_of_ne hji, Function.update_of_ne hji]
      exact (h.holds j).congr fun y hy => (hsame j hji y hy).2
  · by_cases hji : j = i
    · by_cases hki : k = i
      · rw [hji, hki]
      · rw [hji, Function.update_self] at hj
        rw [Function.update_of_ne hki] at hk
        exact absurd hj (hsame k hki y hk).1
    · rw [Function.update_of_ne hji] at hj
      by_cases hki : k = i
      · rw [hki, Function.update_self] at hk
        exact absurd hk (hsame j hji y hj).1
      · rw [Function.update_of_ne hki] at hk
        exact h.disjoint j k y hj hk
  · have hi := hy i
    rwa [Function.update_self] at hi
  · have hmem := hy j
    rwa [Function.update_of_ne hj] at hmem

/-- An item that is in none of the lists is put into one of them. -/
theorem Family.insert_ok [DecidableEq ι] (h : Family items ls lists) (hi : lists i = as ++ bs)
    (hx : ∀ j, x ∉ lists j) : ∃ items' l',
    insert items (ls i) x bs.head? = .ok (items', l') ∧
      Family items' (Function.update ls i l') (Function.update lists i (as ++ x :: bs)) := by
  have hold : ∀ y, y ≠ x → (y ∈ as ++ x :: bs ↔ y ∈ lists i) := by
    intro y hne
    rw [hi, List.mem_append, List.mem_append, List.mem_cons, or_iff_right hne]
  obtain ⟨items', l', hinsert, hholds, hsame⟩ :=
    GridList.insert_ok (hi ▸ h.holds i) (h.idle x hx)
  refine ⟨items', l', hinsert, h.update hholds ?_ ?_⟩
  · intro j hj y hy
    have hnot : y ∉ as ++ x :: bs := by
      have hne : y ≠ x := fun heq => hx j (heq ▸ hy)
      rw [hold y hne]
      exact fun hmem => hj (h.disjoint j i y hy hmem)
    exact ⟨hnot, hsame y hnot⟩
  · intro y hy hother
    have hne : y ≠ x := by
      rintro rfl
      exact hy (List.mem_append_right as List.mem_cons_self)
    rw [GridList.isInList, hsame y hy]
    refine h.idle y fun j => ?_
    by_cases hji : j = i
    · rw [hji, ← hold y hne]
      exact hy
    · exact hother j hji

/-- An item is taken out of one of the lists. -/
theorem Family.erase_ok [DecidableEq ι] (h : Family items ls lists) (hi : lists i = as ++ x :: bs) :
    ∃ items' l', erase items (ls i) x = .ok (items', l', bs.head?) ∧
      Family items' (Function.update ls i l') (Function.update lists i (as ++ bs)) ∧
        ∀ j, x ∉ Function.update lists i (as ++ bs) j := by
  have hnodup := (h.holds i).nodup
  rw [hi, List.nodup_middle, List.nodup_cons] at hnodup
  have hmem : x ∈ lists i := hi ▸ List.mem_append_right as List.mem_cons_self
  have hless : ∀ y, y ≠ x → (y ∈ as ++ bs ↔ y ∈ lists i) := by
    intro y hne
    rw [hi, List.mem_append, List.mem_append, List.mem_cons, or_iff_right hne]
  obtain ⟨items', l', herase, hholds, hout, hsame⟩ := GridList.erase_ok (hi ▸ h.holds i)
  rw [← hi] at hsame
  refine ⟨items', l', herase, h.update hholds ?_ ?_, ?_⟩
  · intro j hj y hy
    have hnot : y ∉ lists i := fun hmem => hj (h.disjoint j i y hy hmem)
    have hne : y ≠ x := by
      rintro rfl
      exact hnot hmem
    exact ⟨fun hmem => hnot ((hless y hne).mp hmem), hsame y hnot⟩
  · intro y hy hother
    by_cases hne : y = x
    · rw [hne, GridList.isInList, hout]
      rfl
    · have hnot : y ∉ lists i := fun hmem => hy ((hless y hne).mpr hmem)
      rw [GridList.isInList, hsame y hnot]
      refine h.idle y fun j => ?_
      by_cases hji : j = i
      · rw [hji]
        exact hnot
      · exact hother j hji
  · intro j
    by_cases hji : j = i
    · rw [hji, Function.update_self]
      exact hnodup.1
    · rw [Function.update_of_ne hji]
      exact fun hx => hji (h.disjoint j i x hx hmem)

end GridList

end GridMq
