import GridMq.Utils.Err
import Mathlib.Algebra.Group.Nat.Defs
import Mathlib.Data.List.Basic
import Mathlib.Data.List.Nodup

set_option autoImplicit false

/-!
# The hash of pipes (`src/utils/hash.c`)

A table of chained slots that doubles when it is half full.  An item is its key with
what it belongs to.  `Hash.Has` says which items are in the table; the operations
are described by it, so that their users see a finite map.
-/

namespace GridMq

/-- `grid_hash_key`. -/
def hashKey (key : Nat) : Nat :=
  let key := (key ^^^ 61) ^^^ (key >>> 16)
  let key := (key + (key <<< 3)) % 2 ^ 32
  let key := key ^^^ (key >>> 4)
  let key := (key * 0x27d4eb2d) % 2 ^ 32
  key ^^^ (key >>> 15)

attribute [irreducible] hashKey

/-- `struct grid_hash`. -/
structure Hash (α : Type) where
  slots : Nat := 32
  items : UInt32 := 0
  array : Nat → List (Nat × α) := fun _ => []

namespace Hash

variable {α : Type}

def setSlot (self : Hash α) (i : Nat) (items : List (Nat × α)) : Hash α :=
  { self with array := fun j => if j = i then items else self.array j }

/-- An item is put at the end of the slot of its key. -/
def push (self : Hash α) (item : Nat × α) : Hash α :=
  let i := hashKey item.1 % self.slots
  self.setSlot i (self.array i ++ [item])

/-- `grid_hash_rehash`: the items of the old slots move to twice as many. -/
def rehash (self : Hash α) : Hash α :=
  ((List.range self.slots).flatMap self.array).foldl push
    { self with slots := self.slots * 2, array := fun _ => [] }

/-- `grid_hash_insert`.  The key must not be in use. -/
def insert (self : Hash α) (key : Nat) (value : α) : Except Abort (Hash α) := do
  gridAssert (∀ item ∈ self.array (hashKey key % self.slots), item.1 ≠ key)
  let self := { self.push (key, value) with items := self.items + 1 }
  return if (self.items * 2).toNat > self.slots ∧ self.slots < 0x80000000 then self.rehash
    else self

/-- `grid_hash_erase`, of the item with a key. -/
def erase (self : Hash α) (key : Nat) : Hash α :=
  let i := hashKey key % self.slots
  { self.setSlot i ((self.array i).eraseP fun item => item.1 = key) with
    items := self.items - 1 }

/-- `grid_hash_get`. -/
def get (self : Hash α) (key : Nat) : Option α :=
  ((self.array (hashKey key % self.slots)).find? fun item => item.1 = key).map Prod.snd

/-! ## The items of a table -/

/-- The item is in the table. -/
def Has (self : Hash α) (key : Nat) (value : α) : Prop :=
  (key, value) ∈ self.array (hashKey key % self.slots)

/-- Items are in the slots of their keys, and no key is used twice. -/
structure WF (table : Hash α) : Prop where
  pos : 0 < table.slots
  slot : ∀ i, ∀ item ∈ table.array i, hashKey item.1 % table.slots = i
  nodup : ∀ i, ((table.array i).map Prod.fst).Nodup

theorem wf_empty : ({} : Hash α).WF where
  pos := Nat.zero_lt_succ 31
  slot _ _ h := absurd h List.not_mem_nil
  nodup _ := List.nodup_nil

theorem not_has_empty (key : Nat) (value : α) : ¬ ({} : Hash α).Has key value :=
  List.not_mem_nil

theorem WF.has_iff {self : Hash α} (h : self.WF) {key : Nat} {value : α} :
    self.Has key value ↔ ∃ i, (key, value) ∈ self.array i := by
  constructor
  · exact fun hhas => ⟨_, hhas⟩
  · rintro ⟨i, hi⟩
    rw [Has, h.slot i _ hi]
    exact hi

theorem WF.unique {self : Hash α} (h : self.WF) {key : Nat} {v w : α} (hv : self.Has key v)
    (hw : self.Has key w) : v = w :=
  (Prod.mk.inj ((List.inj_on_of_nodup_map (h.nodup _)) hv hw rfl)).2

/-- What a lookup finds is what is in the table. -/
theorem WF.get_eq_some_iff {self : Hash α} (h : self.WF) {key : Nat} {value : α} :
    self.get key = some value ↔ self.Has key value := by
  unfold get
  rw [Option.map_eq_some_iff]
  constructor
  · rintro ⟨⟨k, v⟩, hfind, rfl⟩
    have hkey : k = key := by simpa using List.find?_some hfind
    have hmem := List.mem_of_find?_eq_some hfind
    rwa [hkey] at hmem
  · intro hhas
    cases hfind : (self.array (hashKey key % self.slots)).find? fun item => item.1 = key with
    | none => exact absurd (decide_eq_true rfl) (List.find?_eq_none.mp hfind _ hhas)
    | some item =>
        obtain ⟨k, v⟩ := item
        have hkey : k = key := by simpa using List.find?_some hfind
        have hmem := List.mem_of_find?_eq_some hfind
        rw [hkey] at hmem
        exact ⟨(k, v), rfl, h.unique hmem hhas⟩

theorem WF.get_eq_none_iff {self : Hash α} (h : self.WF) {key : Nat} :
    self.get key = none ↔ ∀ value, ¬ self.Has key value := by
  constructor
  · intro hnone value hhas
    rw [h.get_eq_some_iff.mpr hhas] at hnone
    exact absurd hnone (by simp)
  · intro hno
    cases hget : self.get key with
    | none => rfl
    | some v => exact absurd (h.get_eq_some_iff.mp hget) (hno v)

/-! ## The operations -/

theorem array_setSlot (self : Hash α) (i j : Nat) (items : List (Nat × α)) :
    (self.setSlot i items).array j = if j = i then items else self.array j := rfl

/-- An item with a new key is put into the table. -/
theorem push_spec {self : Hash α} {item : Nat × α} (h : self.WF)
    (hnew : ∀ value, ¬ self.Has item.1 value) :
    (self.push item).WF ∧
      ∀ k v, (self.push item).Has k v ↔ self.Has k v ∨ (k, v) = item := by
  have hmem : ∀ j x, x ∈ (self.push item).array j ↔
      x ∈ self.array j ∨ x = item ∧ j = hashKey item.1 % self.slots := by
    intro j x
    unfold push
    rw [array_setSlot]
    split
    · rename_i hj
      rw [List.mem_append, List.mem_singleton, hj]
      simp
    · rename_i hj
      simp [hj]
  refine ⟨⟨h.pos, ?_, ?_⟩, ?_⟩
  · intro j x hx
    rcases (hmem j x).mp hx with hx | ⟨rfl, rfl⟩
    · exact h.slot j x hx
    · rfl
  · intro j
    unfold push
    rw [array_setSlot]
    split
    · rw [List.map_append, List.nodup_append]
      refine ⟨h.nodup _, List.nodup_singleton _, ?_⟩
      intro k hk k' hk'
      obtain ⟨⟨k, v⟩, hx, rfl⟩ := List.mem_map.mp hk
      rw [List.map_singleton, List.mem_singleton] at hk'
      rintro rfl
      refine hnew v ?_
      rw [← hk']
      exact h.has_iff.mpr ⟨_, hx⟩
    · exact h.nodup j
  · intro k v
    rw [Has, hmem]
    constructor
    · rintro (hx | ⟨hx, -⟩)
      · exact Or.inl hx
      · exact Or.inr hx
    · rintro (hx | hx)
      · exact Or.inl hx
      · exact Or.inr ⟨hx, by rw [← hx]; rfl⟩

/-- Items with different new keys are put into the table one after the other. -/
theorem foldl_push_spec (items : List (Nat × α)) {self : Hash α} (h : self.WF)
    (hnodup : (items.map Prod.fst).Nodup)
    (hnew : ∀ item ∈ items, ∀ value, ¬ self.Has item.1 value) :
    (items.foldl push self).WF ∧
      ∀ k v, (items.foldl push self).Has k v ↔ self.Has k v ∨ (k, v) ∈ items := by
  induction items generalizing self with
  | nil => exact ⟨h, fun k v => by simp⟩
  | cons item items ih =>
      rw [List.map_cons, List.nodup_cons] at hnodup
      obtain ⟨hwf, hhas⟩ := push_spec h (hnew item List.mem_cons_self)
      obtain ⟨hwf', hhas'⟩ := ih hwf hnodup.2 (by
        intro x hx value hv
        rcases (hhas _ _).mp hv with hv | hv
        · exact hnew x (List.mem_cons_of_mem _ hx) value hv
        · refine hnodup.1 ?_
          rw [← hv]
          exact List.mem_map.mpr ⟨x, hx, rfl⟩)
      refine ⟨hwf', fun k v => ?_⟩
      rw [List.foldl_cons, hhas', hhas, List.mem_cons, or_assoc]

/-- Rehashing changes neither the items nor the keys. -/
theorem rehash_spec {self : Hash α} (h : self.WF) :
    self.rehash.WF ∧ ∀ k v, self.rehash.Has k v ↔ self.Has k v := by
  have hall : ∀ k v, (k, v) ∈ (List.range self.slots).flatMap self.array ↔ self.Has k v := by
    intro k v
    rw [List.mem_flatMap]
    constructor
    · rintro ⟨i, -, hi⟩
      exact h.has_iff.mpr ⟨i, hi⟩
    · exact fun hhas => ⟨_, List.mem_range.mpr (Nat.mod_lt _ h.pos), hhas⟩
  have hnodup : (((List.range self.slots).flatMap self.array).map Prod.fst).Nodup := by
    rw [List.map_flatMap, List.nodup_flatMap]
    refine ⟨fun i _ => h.nodup i, List.nodup_range.imp ?_⟩
    intro i j hij k hki hkj
    obtain ⟨x, hx, rfl⟩ := List.mem_map.mp hki
    obtain ⟨y, hy, hxy⟩ := List.mem_map.mp hkj
    refine hij ?_
    rw [← h.slot i x hx, ← h.slot j y hy, hxy]
  have hempty : WF (α := α) { self with slots := self.slots * 2, array := fun _ => [] } :=
    ⟨Nat.mul_pos h.pos (by decide), fun i x hx => absurd hx List.not_mem_nil,
      fun i => List.nodup_nil⟩
  obtain ⟨hwf, hhas⟩ := foldl_push_spec _ hempty hnodup fun _ _ _ hv => List.not_mem_nil hv
  refine ⟨hwf, fun k v => ?_⟩
  rw [rehash, hhas, hall]
  exact or_iff_right List.not_mem_nil

/-- An insertion that returns found the key unused. -/
theorem insert_spec {self self' : Hash α} {key : Nat} {value : α} (h : self.WF)
    (hins : self.insert key value = .ok self') :
    (∀ v, ¬ self.Has key v) ∧ self'.WF ∧
      ∀ k v, self'.Has k v ↔ self.Has k v ∨ k = key ∧ v = value := by
  obtain ⟨_, hassert, hret⟩ := bind_eq_ok_iff.mp hins
  have hfree := gridAssert_eq_ok_iff.mp hassert
  have hnew : ∀ v, ¬ self.Has key v := fun v hv => hfree _ hv rfl
  obtain ⟨hwf, hhas⟩ := @push_spec _ _ (key, value) h hnew
  have hwf' : WF { self.push (key, value) with items := self.items + 1 } :=
    ⟨hwf.pos, hwf.slot, hwf.nodup⟩
  have hhas' : ∀ k v, Has { self.push (key, value) with items := self.items + 1 } k v ↔
      self.Has k v ∨ k = key ∧ v = value := fun k v => by
    rw [← Prod.mk.injEq]
    exact hhas k v
  obtain rfl := Except.ok.inj hret
  refine ⟨hnew, ?_⟩
  split
  · obtain ⟨hre, hre'⟩ := rehash_spec hwf'
    exact ⟨hre, fun k v => (hre' k v).trans (hhas' k v)⟩
  · exact ⟨hwf', hhas'⟩

theorem items_foldl_push (items : List (Nat × α)) (self : Hash α) :
    (items.foldl push self).items = self.items := by
  induction items generalizing self with
  | nil => rfl
  | cons item items ih => exact ih (self.push item)

/-- An insertion counts the item. -/
theorem items_insert {self self' : Hash α} {key : Nat} {value : α}
    (hins : self.insert key value = .ok self') : self'.items = self.items + 1 := by
  obtain ⟨_, -, hret⟩ := bind_eq_ok_iff.mp hins
  obtain rfl := Except.ok.inj hret
  split
  · rw [rehash, items_foldl_push]
  · rfl

/-- An insertion with an unused key returns. -/
theorem insert_ok {self : Hash α} {key : Nat} (value : α) (hnew : ∀ v, ¬ self.Has key v) :
    ∃ self', self.insert key value = .ok self' := by
  have hfree : ∀ item ∈ self.array (hashKey key % self.slots), item.1 ≠ key := by
    rintro ⟨k, v⟩ hitem rfl
    exact hnew v hitem
  unfold insert
  rw [gridAssert_pos hfree]
  exact ⟨_, rfl⟩

/-- After its erasure no item has the key. -/
theorem notMem_eraseP {items : List (Nat × α)} (h : (items.map Prod.fst).Nodup) (key : Nat)
    (value : α) : (key, value) ∉ items.eraseP fun item => item.1 = key := by
  induction items with
  | nil => exact List.not_mem_nil
  | cons item items ih =>
      rw [List.map_cons, List.nodup_cons] at h
      by_cases hk : item.1 = key
      · rw [List.eraseP_cons_of_pos (by simpa using hk)]
        exact fun hmem => h.1 (hk ▸ List.mem_map.mpr ⟨_, hmem, rfl⟩)
      · rw [List.eraseP_cons_of_neg (by simpa using hk), List.mem_cons]
        rintro (heq | hmem)
        · exact hk (heq ▸ rfl)
        · exact ih h.2 hmem

theorem slots_erase (self : Hash α) (key : Nat) : (self.erase key).slots = self.slots := by
  simp only [erase, setSlot]

theorem array_erase (self : Hash α) (key i : Nat) :
    (self.erase key).array i = if i = hashKey key % self.slots then
      (self.array (hashKey key % self.slots)).eraseP fun item => item.1 = key
    else self.array i := by
  simp only [erase, setSlot]

theorem erase_spec {self : Hash α} (h : self.WF) (key : Nat) :
    (self.erase key).WF ∧ ∀ k v, (self.erase key).Has k v ↔ self.Has k v ∧ k ≠ key := by
  have hsub : ∀ j, ((self.erase key).array j).Sublist (self.array j) := by
    intro j
    rw [array_erase]
    split
    · rename_i hj
      rw [hj]
      exact List.eraseP_sublist
    · exact List.Sublist.refl _
  refine ⟨⟨?_, ?_, ?_⟩, fun k v => ?_⟩
  · rw [slots_erase]
    exact h.pos
  · intro j x hx
    rw [slots_erase]
    exact h.slot j x ((hsub j).subset hx)
  · exact fun j => (h.nodup j).sublist ((hsub j).map Prod.fst)
  · rw [Has, Has, slots_erase, array_erase]
    by_cases hk : k = key
    · subst hk
      rw [if_pos rfl]
      exact ⟨fun hmem => absurd hmem (notMem_eraseP (h.nodup _) k v),
        fun hmem => absurd rfl hmem.2⟩
    · split
      · rename_i hslot
        rw [List.mem_eraseP_of_neg (by simpa using hk), ← hslot]
        exact ⟨fun hmem => ⟨hmem, hk⟩, fun hmem => hmem.1⟩
      · exact ⟨fun hmem => ⟨hmem, hk⟩, fun hmem => hmem.1⟩

end Hash

end GridMq
