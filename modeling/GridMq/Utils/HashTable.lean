import GridMq.Utils.Hash
import GridMq.Utils.List
import GridMq.Library.Transition
import Mathlib.Data.Sum.Basic

set_option autoImplicit false

/-!
# The hash in memory (`src/utils/hash.c`)

The slots are lists that the items are linked into.  `Stands` says that a table in memory is one
of the tables of `Hash`, and with them a map from keys to items.
-/

namespace GridMq

open GridMq.Library

variable {α : Type} [DecidableEq α]

/-- `struct grid_hash`, and what is in the items. -/
structure HashTable (α : Type) where
  slots : UInt32 := 32
  items : UInt32 := 0
  array : Nat → GridList α := fun _ => {}
  list : α → ListItem α := fun _ => {}
  key : α → UInt32 := fun _ => 0

namespace HashTable

/-- The slot of a key. -/
def slot (self : HashTable α) (key : UInt32) : Nat := hashKey key.toNat % self.slots.toNat

/-- The inner loop of `grid_hash_rehash`: the items of an old slot move, one after the other.  There
is a bound on the turns of all loops. -/
def moveSlot : Nat → HashTable α → GridList α → Option (Except Abort (HashTable α))
  | 0, _, _ => none
  | fuel + 1, self, old =>
      match old.first with
      | none => some (if old.last = none then .ok self else .error .assertion)
      | some hitm =>
          match GridList.erase self.list old hitm with
          | .error e => some (.error e)
          | .ok (list, old, _) =>
              let newslot := self.slot (self.key hitm)
              match GridList.insert list (self.array newslot) hitm none with
              | .error e => some (.error e)
              | .ok (list, l) =>
                  moveSlot fuel
                    { self with list := list, array := Function.update self.array newslot l } old

/-- The outer loop. -/
def moveSlots (fuel : Nat) (oldarray : Nat → GridList α) :
    List Nat → HashTable α → Option (Except Abort (HashTable α))
  | [], self => some (.ok self)
  | i :: rest, self =>
      match moveSlot fuel self (oldarray i) with
      | none => none
      | some (.error e) => some (.error e)
      | some (.ok self) => moveSlots fuel oldarray rest self

/-- `grid_hash_rehash`. -/
def rehash (self : HashTable α) (fuel : Nat) : Option (Except Abort (HashTable α)) :=
  moveSlots fuel self.array (List.range self.slots.toNat)
    { self with slots := self.slots * 2, array := fun _ => {} }

/-- `grid_hash_insert`. -/
def insert (self : HashTable α) (key : UInt32) (item : α) (fuel : Nat) :
    Option (Except Abort (HashTable α)) :=
  let i := self.slot key
  match GridList.walk self.list (fun it => self.key it = key) fuel (self.array i).first with
  | none => none
  | some (.error e) => some (.error e)
  | some (.ok (some _)) => some (.error .assertion)
  | some (.ok none) =>
      match GridList.insert self.list (self.array i) item none with
      | .error e => some (.error e)
      | .ok (list, l) =>
          let self : HashTable α :=
            { self with
              items := self.items + 1
              array := Function.update self.array i l
              list := list
              key := Function.update self.key item key }
          if self.items * 2 > self.slots ∧ self.slots < 0x80000000 then self.rehash fuel
          else some (.ok self)

/-- `grid_hash_erase`. -/
def erase (self : HashTable α) (item : α) : Except Abort (HashTable α) :=
  let slot := self.slot (self.key item)
  match GridList.erase self.list (self.array slot) item with
  | .error e => .error e
  | .ok (list, l, _) =>
      .ok
        { self with
          items := self.items - 1
          array := Function.update self.array slot l
          list := list }

/-- `grid_hash_get`. -/
def get (self : HashTable α) (key : UInt32) (fuel : Nat) : Option (Except Abort (Option α)) :=
  GridList.walk self.list (fun it => self.key it = key) fuel (self.array (self.slot key)).first

/-! ## The table that it stands for -/

variable {t t' : HashTable α} {h : Hash α} {old : Nat → GridList α} {rest : Nat → List (Nat × α)}

/-- The items of a table in memory. -/
structure Stands (t : HashTable α) (h : Hash α) : Prop where
  slots : h.slots = t.slots.toNat
  items : h.items = t.items
  lists : GridList.Family t.list t.array fun i => (h.array i).map Prod.snd
  key : ∀ i, ∀ x ∈ h.array i, (t.key x.2).toNat = x.1

/-- Some items are still in the old slots. -/
structure Moving (t : HashTable α) (old : Nat → GridList α) (h : Hash α)
    (rest : Nat → List (Nat × α)) : Prop where
  slots : h.slots = t.slots.toNat
  items : h.items = t.items
  lists : GridList.Family t.list (Sum.elim old t.array)
    (Sum.elim (fun i => (rest i).map Prod.snd) fun i => (h.array i).map Prod.snd)
  key : ∀ i, ∀ x ∈ h.array i, (t.key x.2).toNat = x.1
  oldkey : ∀ i, ∀ x ∈ rest i, (t.key x.2).toNat = x.1

/-- An old slot is emptied. -/
theorem moveSlot_ok (hm : Moving t old h rest) {ps : List (Nat × α)} {i : Nat} (hi : rest i = ps)
    {fuel : Nat} (hfuel : ps.length < fuel) : ∃ t' old',
    moveSlot fuel t (old i) = some (.ok t') ∧ (∀ j, j ≠ i → old' j = old j) ∧
      Moving t' old' (ps.foldl Hash.push h) (Function.update rest i []) := by
  induction ps generalizing t old h rest fuel with
  | nil =>
      obtain ⟨fuel, rfl⟩ : ∃ k, fuel = k + 1 := ⟨fuel - 1, by omega⟩
      have hholds := hm.lists.holds (.inl i)
      simp only [Sum.elim_inl, hi, List.map_nil] at hholds
      refine ⟨t, old, ?_, fun _ _ => rfl, ?_⟩
      · rw [moveSlot, hholds.first, hholds.last]
        rfl
      · have hsame : Function.update rest i [] = rest := by
          rw [← hi, Function.update_eq_self]
        rw [hsame]
        exact hm
  | cons x ps ih =>
      obtain ⟨fuel, rfl⟩ : ∃ k, fuel = k + 1 := ⟨fuel - 1, by omega⟩
      obtain ⟨k, a⟩ := x
      have hlist : Sum.elim (fun j => (rest j).map Prod.snd) (fun j => (h.array j).map Prod.snd)
          (.inl i) = [] ++ a :: ps.map Prod.snd := by
        rw [Sum.elim_inl, hi]
        rfl
      have hkey : (t.key a).toNat = k := hm.oldkey i (k, a) (by rw [hi]; exact List.mem_cons_self)
      obtain ⟨list₁, l₁, herase, hless, hout⟩ := hm.lists.erase_ok hlist
      let n := t.slot (t.key a)
      have hslot : n = hashKey k % h.slots := by
        rw [hm.slots, ← hkey]
        rfl
      have hnew : Function.update (Sum.elim (fun j => (rest j).map Prod.snd)
          fun j => (h.array j).map Prod.snd) (.inl i) ([] ++ ps.map Prod.snd) (.inr n) =
          (h.array n).map Prod.snd ++ [] := by
        rw [Function.update_of_ne Sum.inr_ne_inl, Sum.elim_inr, List.append_nil]
      obtain ⟨list₂, l₂, hinsert, hmore⟩ := hless.insert_ok hnew hout
      rw [Sum.update_elim_inl, Sum.update_elim_inl, Sum.update_elim_inr, Sum.update_elim_inr] at hmore
      rw [Function.update_of_ne Sum.inr_ne_inl, Sum.elim_inr] at hinsert
      have hrest : Function.update (fun j => (rest j).map Prod.snd) i ([] ++ ps.map Prod.snd) =
          fun j => (Function.update rest i ps j).map Prod.snd :=
        (Function.comp_update (List.map Prod.snd) rest i ps).symm
      have hpush : Function.update (fun j => (h.array j).map Prod.snd) n
          ((h.array n).map Prod.snd ++ [a]) = fun j => ((h.push (k, a)).array j).map Prod.snd := by
        funext j
        rw [Hash.push, Hash.array_setSlot, ← hslot]
        by_cases hj : j = n
        · rw [hj, Function.update_self, if_pos rfl, List.map_append]
          rfl
        · rw [Function.update_of_ne hj, if_neg hj]
      rw [hrest, hpush] at hmore
      have hmoving : Moving
          { t with list := list₂, array := Function.update t.array n l₂ }
          (Function.update old i l₁) (h.push (k, a)) (Function.update rest i ps) := by
        refine ⟨hm.slots, hm.items, hmore, fun j x hx => ?_, fun j x hx => ?_⟩
        · rw [Hash.push, Hash.array_setSlot, ← hslot] at hx
          split at hx
          · rcases List.mem_append.mp hx with hx | hx
            · exact hm.key n x hx
            · rw [List.mem_singleton.mp hx]
              exact hkey
          · exact hm.key j x hx
        · by_cases hj : j = i
          · rw [hj, Function.update_self] at hx
            exact hm.oldkey i x (by rw [hi]; exact List.mem_cons_of_mem _ hx)
          · rw [Function.update_of_ne hj] at hx
            exact hm.oldkey j x hx
      obtain ⟨t', old', hmove, hold, hdone⟩ := ih hmoving (Function.update_self i ps rest)
        (Nat.lt_of_succ_lt_succ hfuel)
      rw [Function.update_self] at hmove
      rw [Function.update_idem] at hdone
      refine ⟨t', old', ?_, fun j hj => ?_, hdone⟩
      · have hfirst : (old i).first = some a := (hm.lists.holds (.inl i)).first.trans
          (by rw [hlist]; rfl)
        change GridList.erase t.list (old i) a = _ at herase
        change GridList.insert list₁ (t.array (t.slot (t.key a))) a none = _ at hinsert
        rw [moveSlot, hfirst]
        simp only [herase, hinsert]
        exact hmove
      · rw [hold j hj, Function.update_of_ne hj]

/-- All old slots are emptied, one after the other. -/
theorem moveSlots_ok (hm : Moving t old h rest) {is : List Nat} (hnodup : is.Nodup)
    {oldarray : Nat → GridList α} (hold : ∀ i ∈ is, oldarray i = old i) {fuel : Nat}
    (hfuel : ∀ i ∈ is, (rest i).length < fuel) : ∃ t' old',
    moveSlots fuel oldarray is t = some (.ok t') ∧
      Moving t' old' ((is.flatMap rest).foldl Hash.push h) fun i => if i ∈ is then [] else rest i := by
  induction is generalizing t old h rest with
  | nil => exact ⟨t, old, rfl, by simpa using hm⟩
  | cons i is ih =>
      obtain ⟨hnot, hnodup⟩ := List.nodup_cons.mp hnodup
      have hne : ∀ j ∈ is, j ≠ i := by
        rintro j hj rfl
        exact hnot hj
      obtain ⟨t₁, old₁, hmove, hother, hm₁⟩ := moveSlot_ok hm rfl (hfuel i List.mem_cons_self)
      have hrest : ∀ j ∈ is, Function.update rest i [] j = rest j := fun j hj =>
        Function.update_of_ne (hne j hj) _ _
      obtain ⟨t', old', hmoves, hdone⟩ := ih hm₁ hnodup
        (fun j hj => (hold j (List.mem_cons_of_mem i hj)).trans (hother j (hne j hj)).symm)
        fun j hj => by
          rw [hrest j hj]
          exact hfuel j (List.mem_cons_of_mem i hj)
      refine ⟨t', old', ?_, ?_⟩
      · rw [moveSlots, hold i List.mem_cons_self, hmove]
        exact hmoves
      · have hflat : is.flatMap (Function.update rest i []) = is.flatMap rest := by
          rw [List.flatMap_def, List.flatMap_def, List.map_congr_left hrest]
        have hleft : (fun j => if j ∈ i :: is then [] else rest j) =
            fun j => if j ∈ is then [] else Function.update rest i [] j := by
          funext j
          by_cases hj : j = i
          · rw [hj, if_pos List.mem_cons_self, if_neg hnot, Function.update_self]
          · simp only [Function.update_of_ne hj, List.mem_cons, hj, false_or]
        rw [hflat] at hdone
        rw [List.flatMap_cons, List.foldl_append, hleft]
        exact hdone

/-- `grid_hash_rehash`. -/
theorem Stands.rehash (hs : Stands t h) (hwf : h.WF) (hfew : t.slots.toNat < 2 ^ 31) {fuel : Nat}
    (hfuel : ∀ i, (h.array i).length < fuel) :
    ∃ t', t.rehash fuel = some (.ok t') ∧ Stands t' h.rehash := by
  have hdouble : (t.slots * 2).toNat = t.slots.toNat * 2 := by
    rw [UInt32.toNat_mul]
    exact Nat.mod_eq_of_lt (by change t.slots.toNat * 2 < 2 ^ 32; omega)
  have hstart : Moving { t with slots := t.slots * 2, array := fun _ => {} } t.array
      { h with slots := h.slots * 2, array := fun _ => [] } h.array := by
    refine ⟨?_, hs.items, ?_, fun _ _ hx => absurd hx List.not_mem_nil, hs.key⟩
    · rw [hs.slots]
      exact hdouble.symm
    · refine ⟨?_, ?_, ?_⟩
      · rintro (i | i)
        · exact hs.lists.holds i
        · exact GridList.holds_nil _
      · rintro (i | i) (j | j) x hi hj
        · exact congrArg Sum.inl (hs.lists.disjoint i j x hi hj)
        · exact absurd hj List.not_mem_nil
        · exact absurd hi List.not_mem_nil
        · exact absurd hi List.not_mem_nil
      · exact fun x hx => hs.lists.idle x fun i => hx (.inl i)
  obtain ⟨t', old', hmoves, hm⟩ := moveSlots_ok hstart
    (List.nodup_range : (List.range h.slots).Nodup)
    (fun i _ => (rfl : t.array i = t.array i)) fun i _ => hfuel i
  have hnone : ∀ i, (if i ∈ List.range h.slots then [] else h.array i) = [] := by
    intro i
    split
    · rfl
    · rename_i hout
      refine List.eq_nil_iff_forall_not_mem.mpr fun x hx => hout ?_
      rw [List.mem_range, ← hwf.slot i x hx]
      exact Nat.mod_lt _ hwf.pos
  refine ⟨t', ?_, ⟨hm.slots, hm.items, ⟨fun i => hm.lists.holds (.inr i), ?_, ?_⟩, hm.key⟩⟩
  · rw [HashTable.rehash, ← hs.slots]
    exact hmoves
  · exact fun i j x hi hj => Sum.inr.inj (hm.lists.disjoint (.inr i) (.inr j) x hi hj)
  · intro x hx
    refine hm.lists.idle x ?_
    rintro (i | i)
    · simp only [Sum.elim_inl, hnone i]
      exact List.not_mem_nil
    · exact hx i

/-! ## More turns -/

theorem moveSlot_mono {fuel more : Nat} {l : GridList α} {r : Except Abort (HashTable α)}
    (h : moveSlot fuel t l = some r) (hle : fuel ≤ more) : moveSlot more t l = some r := by
  induction fuel generalizing t l more with
  | zero => exact absurd h (by simp [moveSlot])
  | succ fuel ih =>
      obtain ⟨more, rfl⟩ : ∃ k, more = k + 1 := ⟨more - 1, by omega⟩
      have hle' := Nat.le_of_succ_le_succ hle
      rw [moveSlot] at h ⊢
      cases hfirst : l.first with
      | none =>
          rw [hfirst] at h
          exact h
      | some hitm =>
          rw [hfirst] at h
          simp only at h ⊢
          cases herase : GridList.erase t.list l hitm with
          | error e =>
              rw [herase] at h
              exact h
          | ok e =>
              rw [herase] at h
              simp only at h ⊢
              cases hinsert : GridList.insert e.1 (t.array (t.slot (t.key hitm))) hitm none with
              | error e =>
                  rw [hinsert] at h
                  exact h
              | ok e' =>
                  rw [hinsert] at h
                  exact ih h hle'

theorem moveSlots_mono {fuel more : Nat} {is : List Nat} {r : Except Abort (HashTable α)}
    (h : moveSlots fuel old is t = some r) (hle : fuel ≤ more) :
    moveSlots more old is t = some r := by
  induction is generalizing t with
  | nil => exact h
  | cons i is ih =>
      rw [moveSlots] at h ⊢
      cases hmove : moveSlot fuel t (old i) with
      | none =>
          rw [hmove] at h
          exact absurd h (by simp)
      | some e =>
          rw [hmove] at h
          rw [moveSlot_mono hmove hle]
          cases e with
          | error e => exact h
          | ok t₁ => exact ih h

/-- An insertion that returns does so with any larger bound. -/
theorem insert_mono {fuel more : Nat} {key : UInt32} {item : α} {r : Except Abort (HashTable α)}
    (h : t.insert key item fuel = some r) (hle : fuel ≤ more) :
    t.insert key item more = some r := by
  rw [HashTable.insert] at h ⊢
  cases hwalk : GridList.walk t.list (fun it => decide (t.key it = key)) fuel
      (t.array (t.slot key)).first with
  | none =>
      rw [hwalk] at h
      exact absurd h (by simp)
  | some e =>
      rw [hwalk] at h
      rw [GridList.walk_mono hwalk hle]
      rcases e with e | (_ | it)
      · exact h
      · simp only at h ⊢
        cases hinsert : GridList.insert t.list (t.array (t.slot key)) item none with
        | error e =>
            rw [hinsert] at h
            exact h
        | ok e =>
            rw [hinsert] at h
            simp only at h ⊢
            split at h
            · rename_i hfull
              rw [if_pos hfull]
              exact moveSlots_mono h hle
            · rename_i hroom
              rw [if_neg hroom]
              exact h
      · exact h

/-! ## The calls -/

omit [DecidableEq α] in
/-- The items of a table are in it under one key, in one slot. -/
theorem Stands.mem_key (hs : Stands t h) (hwf : h.WF) {i : Nat} {x : Nat × α}
    (hx : x ∈ h.array i) : x = ((t.key x.2).toNat, x.2) ∧ i = t.slot (t.key x.2) := by
  have hkey := hs.key i x hx
  refine ⟨Prod.ext hkey.symm rfl, ?_⟩
  rw [slot, hkey, ← hs.slots, hwf.slot i x hx]

omit [DecidableEq α] in
/-- The loops over a slot look for a key. -/
theorem Stands.find_key (hs : Stands t h) (key : UInt32) :
    ((h.array (t.slot key)).map Prod.snd).find? (fun it => t.key it = key) = h.get key.toNat := by
  have hkey := hs.key (t.slot key)
  rw [Hash.get, hs.slots]
  change _ = ((h.array (t.slot key)).find? _).map Prod.snd
  generalize h.array (t.slot key) = xs at hkey
  induction xs with
  | nil => rfl
  | cons x xs ih =>
      have hiff : t.key x.2 = key ↔ x.1 = key.toNat := by
        rw [← hkey x List.mem_cons_self, UInt32.toNat_inj]
      rw [List.map_cons, List.find?_cons, List.find?_cons]
      by_cases heq : t.key x.2 = key
      · simp only [heq, hiff.mp heq, decide_true, Option.map_some]
      · have hne : ¬x.1 = key.toNat := fun hx => heq (hiff.mpr hx)
        simp only [heq, hne, decide_false]
        exact ih fun y hy => hkey y (List.mem_cons_of_mem x hy)

omit [DecidableEq α] in
/-- `grid_hash_get`. -/
theorem Stands.get (hs : Stands t h) (key : UInt32) {fuel : Nat}
    (hfuel : (h.array (t.slot key)).length < fuel) :
    t.get key fuel = some (.ok (h.get key.toNat)) := by
  have hholds := hs.lists.holds (t.slot key)
  rw [HashTable.get, hholds.first,
    hholds.linked.walk_eq _ (by rw [List.length_map]; exact hfuel), hs.find_key]

/-- `grid_hash_erase` of an item that is in the table. -/
theorem Stands.erase (hs : Stands t h) (hwf : h.WF) {i : Nat} {x : Nat × α} (hx : x ∈ h.array i) :
    ∃ t', t.erase x.2 = .ok t' ∧ Stands t' (h.erase x.1) := by
  obtain ⟨-, hslot⟩ := hs.mem_key hwf hx
  obtain ⟨as, bs, hsplit⟩ := List.append_of_mem hx
  have hi : (h.array i).map Prod.snd = as.map Prod.snd ++ x.2 :: bs.map Prod.snd := by
    rw [hsplit, List.map_append, List.map_cons]
  have hkeys := hwf.nodup i
  rw [hsplit, List.map_append, List.map_cons, List.nodup_middle, List.nodup_cons] at hkeys
  have heraseP : (h.array i).eraseP (fun item => item.1 = x.1) = as ++ bs := by
    rw [hsplit, List.eraseP_append_right, List.eraseP_cons_of_pos (by simp)]
    intro a ha heq
    exact hkeys.1 (of_decide_eq_true heq ▸ List.mem_append_left _ (List.mem_map_of_mem ha))
  have hhash : i = hashKey x.1 % h.slots := (hwf.slot i x hx).symm
  have harray : ∀ j, (h.erase x.1).array j = if j = i then as ++ bs else h.array j := by
    intro j
    rw [Hash.array_erase, ← hhash, heraseP]
  obtain ⟨list, l, herase, hlists, -⟩ := hs.lists.erase_ok hi
  have hcall : t.erase x.2 = .ok
      { t with items := t.items - 1, array := Function.update t.array i l, list := list } := by
    rw [HashTable.erase, ← hslot, herase]
  refine ⟨_, hcall, ⟨?_, ?_, ?_, ?_⟩⟩
  · rw [Hash.slots_erase]
    exact hs.slots
  · change h.items - 1 = t.items - 1
    rw [hs.items]
  · convert hlists using 1
    funext j
    rw [harray]
    by_cases hj : j = i
    · rw [hj, if_pos rfl, Function.update_self, List.map_append]
    · rw [if_neg hj, Function.update_of_ne hj]
  · intro j y hy
    rw [harray] at hy
    split at hy
    · refine hs.key i y ?_
      rw [hsplit]
      exact ((List.sublist_cons_self x bs).append_left as).subset hy
    · exact hs.key j y hy

omit [DecidableEq α] in
/-- The slots are no longer than some bound. -/
theorem exists_bound (hwf : h.WF) : ∃ bound, ∀ i, (h.array i).length < bound := by
  have hbelow : ∀ n, ∃ bound, 0 < bound ∧ ∀ i < n, (h.array i).length < bound := by
    intro n
    induction n with
    | zero => exact ⟨1, Nat.one_pos, fun i hi => absurd hi (Nat.not_lt_zero i)⟩
    | succ n ih =>
        obtain ⟨bound, hpos, hbound⟩ := ih
        refine ⟨max bound ((h.array n).length + 1), by omega, fun i hi => ?_⟩
        rcases Nat.lt_succ_iff_lt_or_eq.mp hi with hlt | rfl
        · exact Nat.lt_of_lt_of_le (hbound i hlt) (Nat.le_max_left _ _)
        · exact Nat.lt_of_succ_le (Nat.le_max_right _ _)
  obtain ⟨bound, hpos, hbound⟩ := hbelow h.slots
  refine ⟨bound, fun i => ?_⟩
  by_cases hi : i < h.slots
  · exact hbound i hi
  · have hnil : h.array i = [] := by
      refine List.eq_nil_iff_forall_not_mem.mpr fun x hx => hi ?_
      rw [← hwf.slot i x hx]
      exact Nat.mod_lt _ hwf.pos
    rw [hnil]
    exact hpos

/-- `grid_hash_insert` of an item that is in no table, under a key that is not in use. -/
theorem Stands.insert (hs : Stands t h) (hwf : h.WF) {key : UInt32} {item : α}
    (hkey : ∀ v, ¬h.Has key.toNat v) (hitem : ∀ i, ∀ x ∈ h.array i, x.2 ≠ item) :
    ∃ t' h' bound, t.insert key item bound = some (.ok t') ∧
      h.insert key.toNat item = .ok h' ∧ Stands t' h' := by
  let i := t.slot key
  have hhash : i = hashKey key.toNat % h.slots := by rw [hs.slots]; rfl
  have hnone : ∀ j, item ∉ (h.array j).map Prod.snd := by
    intro j hmem
    obtain ⟨x, hx, heq⟩ := List.mem_map.mp hmem
    exact hitem j x hx heq
  obtain ⟨list, l, hinsert, hlists⟩ := hs.lists.insert_ok (List.append_nil _).symm hnone (i := i)
  change GridList.insert t.list (t.array i) item none = _ at hinsert
  let t₁ : HashTable α :=
    { t with
      items := t.items + 1
      array := Function.update t.array i l
      list := list
      key := Function.update t.key item key }
  let h₁ : Hash α := { h.push (key.toNat, item) with items := h.items + 1 }
  have harray : ∀ j, h₁.array j = if j = i then h.array i ++ [(key.toNat, item)] else h.array j := by
    intro j
    rw [hhash]
    rfl
  have hs₁ : Stands t₁ h₁ := by
    refine ⟨hs.slots, congrArg (· + 1) hs.items, ?_, fun j x hx => ?_⟩
    · convert hlists using 1
      funext j
      rw [harray]
      by_cases hj : j = i
      · rw [hj, if_pos rfl, Function.update_self, List.map_append]
        rfl
      · rw [if_neg hj, Function.update_of_ne hj]
    · have hcase : x = (key.toNat, item) ∨ x ∈ h.array j := by
        rw [harray] at hx
        split at hx
        · rename_i hj
          rw [hj]
          exact (List.mem_append.mp hx).symm.imp_left List.mem_singleton.mp
        · exact Or.inr hx
      rcases hcase with rfl | hold
      · change (Function.update t.key item key item).toNat = _
        rw [Function.update_self]
      · change (Function.update t.key item key x.2).toNat = _
        rw [Function.update_of_ne (hitem j x hold)]
        exact hs.key j x hold
  have hwf₁ : h₁.WF := by
    obtain ⟨hpush, -⟩ := @Hash.push_spec _ _ (key.toNat, item) hwf hkey
    exact ⟨hpush.pos, hpush.slot, hpush.nodup⟩
  have hwalk : ∀ fuel, (h.array i).length < fuel →
      GridList.walk t.list (fun it => t.key it = key) fuel (t.array i).first = some (.ok none) := by
    intro fuel hfuel
    have hget := hs.get key hfuel
    rwa [hwf.get_eq_none_iff.mpr hkey] at hget
  have hcall : ∀ fuel, (h.array i).length < fuel → t.insert key item fuel =
      if t₁.items * 2 > t₁.slots ∧ t₁.slots < 0x80000000 then t₁.rehash fuel
      else some (.ok t₁) := by
    intro fuel hfuel
    rw [HashTable.insert]
    simp only [hwalk fuel hfuel, hinsert, i, t₁]
  have hhashcall : h.insert key.toNat item =
      .ok (if (h₁.items * 2).toNat > h₁.slots ∧ h₁.slots < 0x80000000 then h₁.rehash else h₁) := by
    have hfree : ∀ x ∈ h.array (hashKey key.toNat % h.slots), x.1 ≠ key.toNat := by
      rintro ⟨k, v⟩ hx rfl
      exact hkey v hx
    rw [Hash.insert, gridAssert_pos hfree]
    rfl
  have hiff : t₁.items * 2 > t₁.slots ∧ t₁.slots < 0x80000000 ↔
      (h₁.items * 2).toNat > h₁.slots ∧ h₁.slots < 0x80000000 := by
    rw [hs₁.slots, hs₁.items, gt_iff_lt, UInt32.lt_iff_toNat_lt, UInt32.lt_iff_toNat_lt]
    exact Iff.rfl
  by_cases hfull : t₁.items * 2 > t₁.slots ∧ t₁.slots < 0x80000000
  · have hfew : t₁.slots.toNat < 2 ^ 31 := UInt32.lt_iff_toNat_lt.mp hfull.2
    obtain ⟨bound, hbound⟩ := exists_bound hwf₁
    obtain ⟨t', hrehash, hs'⟩ := hs₁.rehash hwf₁ hfew fun j =>
      Nat.lt_of_lt_of_le (hbound j) (Nat.le_max_left bound ((h.array i).length + 1))
    refine ⟨t', h₁.rehash, max bound ((h.array i).length + 1), ?_, ?_, hs'⟩
    · rw [hcall _ (Nat.lt_of_succ_le (Nat.le_max_right bound _)), if_pos hfull, hrehash]
    · rw [hhashcall, if_pos (hiff.mp hfull)]
  · refine ⟨t₁, h₁, (h.array i).length + 1, ?_, ?_, hs₁⟩
    · rw [hcall _ (Nat.lt_succ_self _), if_neg hfull]
    · rw [hhashcall, if_neg (fun hx => hfull (hiff.mpr hx))]

/-- An insertion that returns found neither the key nor the item in the table. -/
theorem Stands.insert_new (hs : Stands t h) (hwf : h.WF) {key : UInt32} {item : α} {fuel : Nat}
    (hinsert : t.insert key item fuel = some (.ok t')) :
    (∀ v, ¬h.Has key.toNat v) ∧ ∀ i, ∀ x ∈ h.array i, x.2 ≠ item := by
  have hholds := hs.lists.holds (t.slot key)
  rw [HashTable.insert] at hinsert
  cases hwalk : GridList.walk t.list (fun it => decide (t.key it = key)) fuel
      (t.array (t.slot key)).first with
  | none =>
      rw [hwalk] at hinsert
      exact absurd hinsert (by simp)
  | some r =>
      rw [hwalk] at hinsert
      rw [hholds.first] at hwalk
      rw [hholds.linked.walk_some _ hwalk, hs.find_key] at hinsert
      cases hget : h.get key.toNat with
      | some v =>
          rw [hget] at hinsert
          exact absurd hinsert (by simp)
      | none =>
          rw [hget] at hinsert
          refine ⟨hwf.get_eq_none_iff.mp hget, ?_⟩
          rintro i x hx rfl
          simp only [GridList.insert_isInList (hs.lists.isInList (i := i)
            (List.mem_map_of_mem hx))] at hinsert
          exact absurd hinsert (by simp)

/-- An item that is erased was in the table. -/
theorem Stands.erase_old (hs : Stands t h) {item : α} (herase : t.erase item = .ok t') :
    ∃ i, ∃ x ∈ h.array i, x.2 = item := by
  have hin : GridList.isInList t.list item = true := by
    cases hprev : (t.list item).prev with
    | some p =>
        rw [GridList.isInList, hprev]
        rfl
    | none =>
        rw [HashTable.erase, GridList.erase, hprev] at herase
        exact absurd herase (by simp)
  obtain ⟨i, hi⟩ := hs.lists.exists_mem hin
  obtain ⟨x, hx, heq⟩ := List.mem_map.mp hi
  exact ⟨i, x, hx, heq⟩

end HashTable

/-! ## All runs -/

/-- A call, with what it returned. -/
inductive HashCall (α : Type) where
  | insert (key : UInt32) (item : α)
  | erase (item : α)
  | get (key : UInt32) (item : Option α)
  deriving DecidableEq, Repr

/-- A call returns. -/
def HashTable.Step (t : HashTable α) : HashCall α → HashTable α → Prop
  | .insert key item, t' => ∃ fuel, t.insert key item fuel = some (.ok t')
  | .erase item, t' => t.erase item = .ok t'
  | .get key item, t' => (∃ fuel, t.get key fuel = some (.ok item)) ∧ t' = t

/-- A table that is used, from its initialisation on. -/
def hashTable (α : Type) [DecidableEq α] : System (HashTable α) (HashCall α) where
  init t := t = {}
  step := HashTable.Step

section

variable {t t' : HashTable α} {key : UInt32} {item : α} {r : Option α} {fuel : Nat}

theorem HashTable.step_insert (h : t.insert key item fuel = some (.ok t')) :
    (hashTable α).step t (.insert key item) t' := ⟨fuel, h⟩

theorem HashTable.step_erase (h : t.erase item = .ok t') :
    (hashTable α).step t (.erase item) t' := h

theorem HashTable.step_get (h : t.get key fuel = some (.ok r)) :
    (hashTable α).step t (.get key r) t := ⟨⟨fuel, h⟩, rfl⟩

end

/-- What a call does to the map from keys to items, and what a lookup returns. -/
inductive ItemMap.Step (m : List (UInt32 × α)) : HashCall α → List (UInt32 × α) → Prop where
  | insert (key : UInt32) (item : α) (hkey : ∀ x ∈ m, x.1 ≠ key) (hitem : ∀ x ∈ m, x.2 ≠ item) :
      Step m (.insert key item) ((key, item) :: m)
  | erase (key : UInt32) (item : α) (h : (key, item) ∈ m) :
      Step m (.erase item) (m.erase (key, item))
  | get (key : UInt32) (r : Option α) (h : ∀ item, r = some item ↔ (key, item) ∈ m) :
      Step m (.get key r) m

/-- The map that a table is for. -/
def itemMap (α : Type) [DecidableEq α] : System (List (UInt32 × α)) (HashCall α) where
  init m := m = []
  step := ItemMap.Step

namespace HashTable

/-- Each item of the map is in the slot of its key once, no other item is there, and they are
counted. -/
structure Maps (t : HashTable α) (m : List (UInt32 × α)) : Prop where
  slots : ∀ i, ∃ xs, GridList.Holds t.list (t.array i) xs ∧ xs.Nodup ∧
    ∀ a, a ∈ xs ↔ ∃ key, (key, a) ∈ m ∧ t.slot key = i
  keys : (m.map Prod.fst).Nodup
  items : (m.map Prod.snd).Nodup
  count : t.items = UInt32.ofNat m.length

/-- The table that stands between them. -/
structure Between (t : HashTable α) (h : Hash α) (m : List (UInt32 × α)) : Prop where
  stands : Stands t h
  wf : h.WF
  has : ∀ key item, h.Has key.toNat item ↔ (key, item) ∈ m
  keys : (m.map Prod.fst).Nodup
  items : (m.map Prod.snd).Nodup
  count : t.items = UInt32.ofNat m.length

variable {t t' : HashTable α} {h : Hash α} {m : List (UInt32 × α)}

omit [DecidableEq α] in
/-- What is in a slot is in the map. -/
theorem Between.mem (hb : Between t h m) {i : Nat} {x : Nat × α} (hx : x ∈ h.array i) :
    (t.key x.2, x.2) ∈ m ∧ t.slot (t.key x.2) = i := by
  obtain ⟨hpair, hi⟩ := hb.stands.mem_key hb.wf hx
  refine ⟨(hb.has _ _).mp ?_, hi.symm⟩
  rw [hpair] at hx
  exact hb.wf.has_iff.mpr ⟨i, hx⟩

omit [DecidableEq α] in
theorem Between.maps (hb : Between t h m) : Maps t m where
  slots i := by
    have hholds := hb.stands.lists.holds i
    refine ⟨_, hholds, hholds.nodup, fun a => ?_⟩
    constructor
    · intro ha
      obtain ⟨x, hx, rfl⟩ := List.mem_map.mp ha
      exact ⟨t.key x.2, hb.mem hx⟩
    · rintro ⟨key, hm, rfl⟩
      have hhas := (hb.has key a).mpr hm
      rw [Hash.Has, hb.stands.slots] at hhas
      exact List.mem_map_of_mem hhas
  keys := hb.keys
  items := hb.items
  count := hb.count

omit [DecidableEq α] in
theorem between_start : Between ({} : HashTable α) {} [] where
  stands :=
    ⟨rfl, rfl, ⟨fun _ => GridList.holds_nil _, fun _ _ _ h => absurd h List.not_mem_nil,
      fun _ _ => rfl⟩, fun _ _ h => absurd h List.not_mem_nil⟩
  wf := Hash.wf_empty
  has _ _ := ⟨fun h => absurd h (Hash.not_has_empty _ _), fun h => absurd h List.not_mem_nil⟩
  keys := List.nodup_nil
  items := List.nodup_nil
  count := rfl

/-- An insertion. -/
theorem Between.insert (hb : Between t h m) {key : UInt32} {item : α}
    (hkey : ∀ x ∈ m, x.1 ≠ key) (hitem : ∀ x ∈ m, x.2 ≠ item) :
    ∃ t' h' bound, t.insert key item bound = some (.ok t') ∧ Between t' h' ((key, item) :: m) := by
  have hnokey : ∀ v, ¬h.Has key.toNat v := fun v hv => hkey _ ((hb.has key v).mp hv) rfl
  have hnoitem : ∀ i, ∀ x ∈ h.array i, x.2 ≠ item := fun i x hx => hitem _ (hb.mem hx).1
  obtain ⟨t', h', bound, hinsert, hhash, hstands⟩ := hb.stands.insert hb.wf hnokey hnoitem
  obtain ⟨-, hwf, hhas⟩ := Hash.insert_spec hb.wf hhash
  refine ⟨t', h', bound, hinsert, hstands, hwf, fun k a => ?_, ?_, ?_, ?_⟩
  · rw [hhas, hb.has, UInt32.toNat_inj, List.mem_cons, Prod.mk.injEq, or_comm]
  · refine List.nodup_cons.mpr ⟨fun hmem => ?_, hb.keys⟩
    obtain ⟨x, hx, heq⟩ := List.mem_map.mp hmem
    exact hkey x hx heq
  · refine List.nodup_cons.mpr ⟨fun hmem => ?_, hb.items⟩
    obtain ⟨x, hx, heq⟩ := List.mem_map.mp hmem
    exact hitem x hx heq
  · rw [← hstands.items, Hash.items_insert hhash, hb.stands.items, hb.count, List.length_cons,
      UInt32.ofNat_add]
    rfl

/-- An erasure. -/
theorem Between.erase (hb : Between t h m) {key : UInt32} {item : α} (hm : (key, item) ∈ m) :
    ∃ t' h', t.erase item = .ok t' ∧ Between t' h' (m.erase (key, item)) := by
  have hhas := (hb.has key item).mpr hm
  obtain ⟨t', herase, hstands⟩ := hb.stands.erase hb.wf hhas
  obtain ⟨hwf, hhas'⟩ := Hash.erase_spec hb.wf key.toNat
  have hnodup : m.Nodup := hb.keys.of_map Prod.fst
  refine ⟨t', _, herase, hstands, hwf, fun k a => ?_, ?_, ?_, ?_⟩
  · rw [hhas', hb.has, hnodup.mem_erase_iff, and_comm]
    refine and_congr_left fun hka => not_congr ?_
    rw [UInt32.toNat_inj, Prod.mk.injEq]
    refine ⟨?_, fun h => h.1⟩
    rintro rfl
    exact ⟨rfl, hb.wf.unique ((hb.has k a).mpr hka) hhas⟩
  · exact hb.keys.sublist (List.erase_sublist.map Prod.fst)
  · exact hb.items.sublist (List.erase_sublist.map Prod.snd)
  · have hlength := List.length_erase_of_mem hm
    have hpos := List.length_pos_of_mem hm
    rw [← hstands.items]
    change h.items - 1 = _
    obtain ⟨n, hn⟩ : ∃ n, m.length = n + 1 := ⟨m.length - 1, by omega⟩
    rw [hb.stands.items, hb.count, hlength, hn, UInt32.ofNat_add, Nat.add_sub_cancel]
    exact UInt32.add_sub_cancel _ _

omit [DecidableEq α] in
/-- A lookup. -/
theorem Between.get (hb : Between t h m) (key : UInt32) :
    ∃ bound r, t.get key bound = some (.ok r) ∧ ∀ item, r = some item ↔ (key, item) ∈ m := by
  refine ⟨_, _, hb.stands.get key (Nat.lt_succ_self _), fun item => ?_⟩
  rw [hb.wf.get_eq_some_iff, hb.has]

/-- A call of the table is one of the map. -/
theorem Between.step (hb : Between t h m) {l : HashCall α} (hstep : t.Step l t') :
    ∃ h' m', ItemMap.Step m l m' ∧ Between t' h' m' := by
  cases l with
  | insert key item =>
      obtain ⟨fuel, hinsert⟩ := hstep
      obtain ⟨hnokey, hnoitem⟩ := hb.stands.insert_new hb.wf hinsert
      have hkey : ∀ x ∈ m, x.1 ≠ key := by
        rintro ⟨k, a⟩ hx rfl
        exact hnokey a ((hb.has k a).mpr hx)
      have hitem : ∀ x ∈ m, x.2 ≠ item := by
        rintro ⟨k, a⟩ hx rfl
        exact hnoitem _ _ ((hb.has k a).mpr hx) rfl
      obtain ⟨t₁, h₁, bound, hinsert₁, hb₁⟩ := hb.insert hkey hitem
      have hmore := insert_mono hinsert (Nat.le_max_left fuel bound)
      rw [insert_mono hinsert₁ (Nat.le_max_right fuel bound)] at hmore
      obtain rfl := Except.ok.inj (Option.some.inj hmore)
      exact ⟨h₁, _, .insert key item hkey hitem, hb₁⟩
  | erase item =>
      obtain ⟨i, x, hx, rfl⟩ := hb.stands.erase_old hstep
      obtain ⟨t₁, h₁, herase₁, hb₁⟩ := hb.erase (hb.mem hx).1
      have hsame : t.erase x.2 = .ok t' := hstep
      rw [herase₁] at hsame
      obtain rfl := Except.ok.inj hsame
      exact ⟨h₁, _, .erase _ _ (hb.mem hx).1, hb₁⟩
  | get key r =>
      obtain ⟨⟨fuel, hget⟩, rfl⟩ := hstep
      obtain ⟨bound, r₁, hget₁, hr₁⟩ := hb.get key
      have hmore := GridList.walk_mono hget (Nat.le_max_left fuel bound)
      rw [GridList.walk_mono hget₁ (Nat.le_max_right fuel bound)] at hmore
      obtain rfl := Except.ok.inj (Option.some.inj hmore)
      exact ⟨h, m, .get key _ hr₁, hb⟩

/-- No call gets stuck: the loops end, and no assertion fails. -/
structure Returns (t : HashTable α) (m : List (UInt32 × α)) : Prop where
  insert : ∀ key item, (∀ x ∈ m, x.1 ≠ key) → (∀ x ∈ m, x.2 ≠ item) →
    ∃ t', t.Step (.insert key item) t'
  erase : ∀ x ∈ m, ∃ t', t.Step (.erase x.2) t'
  get : ∀ key, ∃ r t', t.Step (.get key r) t'

theorem Between.returns (hb : Between t h m) : Returns t m where
  insert key item hkey hitem := by
    obtain ⟨t', -, bound, hinsert, -⟩ := hb.insert hkey hitem
    exact ⟨t', step_insert hinsert⟩
  erase x hx := by
    obtain ⟨t', -, herase, -⟩ := hb.erase hx
    exact ⟨t', step_erase herase⟩
  get key := by
    obtain ⟨bound, r, hget, -⟩ := hb.get key
    exact ⟨r, t, step_get hget⟩

/-- Whatever is called, the table is the map. -/
theorem between_run {labels : List (HashCall α)} (hrun : (hashTable α).Run labels t) :
    ∃ h m, (itemMap α).Run labels m ∧ Between t h m := by
  induction hrun with
  | start h =>
      rw [h]
      exact ⟨_, [], .start rfl, between_start⟩
  | step _ hstep ih =>
      obtain ⟨h, m, hm, hb⟩ := ih
      obtain ⟨h', m', hstep', hb'⟩ := hb.step hstep
      exact ⟨h', m', .step hm hstep', hb'⟩

/-- In every run the table is a map from keys to items: lookups return what the map's do, each item
is in the slot of its key once, and they are counted. -/
theorem finds_items {labels : List (HashCall α)} (hrun : (hashTable α).Run labels t) :
    ∃ m, (itemMap α).Run labels m ∧ Maps t m ∧ Returns t m := by
  obtain ⟨h, m, hm, hb⟩ := between_run hrun
  exact ⟨m, hm, hb.maps, hb.returns⟩

/-- The first numbers are inserted, each under itself. -/
theorem run_inserts (n : Nat) (hn : n ≤ 2 ^ 32) :
    ∃ (t : HashTable Nat) (h : Hash Nat) (m : List (UInt32 × Nat)),
      (hashTable Nat).Run ((List.range n).map fun i => .insert (UInt32.ofNat i) i) t ∧
        Between t h m ∧ ∀ x, x ∈ m ↔ x.2 < n ∧ x.1 = UInt32.ofNat x.2 := by
  induction n with
  | zero => exact ⟨{}, {}, [], .start rfl, between_start, fun x => by simp⟩
  | succ n ih =>
      obtain ⟨t, h, m, hrun, hb, hm⟩ := ih (by omega)
      have hkey : ∀ x ∈ m, x.1 ≠ UInt32.ofNat n := by
        intro x hx heq
        obtain ⟨hlt, hof⟩ := (hm x).mp hx
        have hsame := congrArg UInt32.toNat (hof.symm.trans heq)
        rw [UInt32.toNat_ofNat', UInt32.toNat_ofNat'] at hsame
        omega
      have hitem : ∀ x ∈ m, x.2 ≠ n := fun x hx => Nat.ne_of_lt ((hm x).mp hx).1
      obtain ⟨t', h', bound, hinsert, hb'⟩ := hb.insert hkey hitem
      refine ⟨t', h', _, ?_, hb', fun x => ?_⟩
      · rw [List.range_succ, List.map_append]
        exact hrun.step (step_insert hinsert)
      · rw [List.mem_cons, hm, Prod.ext_iff, Nat.lt_succ_iff_lt_or_eq]
        constructor
        · rintro (⟨hx, hn⟩ | ⟨hlt, hx⟩)
          · exact ⟨Or.inr hn, by rw [hx, hn]⟩
          · exact ⟨Or.inl hlt, hx⟩
        · rintro ⟨hlt | hn, hx⟩
          · exact Or.inr ⟨hlt, hx⟩
          · exact Or.inl ⟨by rw [hx, hn], hn⟩

/-- A hundred items are inserted, more than the slots of a new table are made for, and one of them
is found and erased. -/
theorem finds_items_hundred : ∃ t : HashTable Nat, ∃ m,
    (itemMap Nat).Run ((List.range 100).map (fun i => .insert (UInt32.ofNat i) i) ++
      [.get 41 (some 41)] ++ [.erase 41]) m ∧ Maps t m ∧ Returns t m := by
  obtain ⟨t, h, m, hinserted, hb, hm⟩ := run_inserts 100 (by decide)
  have hmem : (41, 41) ∈ m := (hm (41, 41)).mpr ⟨by decide, rfl⟩
  obtain ⟨bound, r, hget, hr⟩ := hb.get 41
  obtain rfl : r = some 41 := (hr 41).mpr hmem
  obtain ⟨t', h', herase, -⟩ := hb.erase hmem
  have hfound := hinserted.step (step_get hget)
  exact ⟨t', finds_items (hfound.step (step_erase herase))⟩

end HashTable

end GridMq
