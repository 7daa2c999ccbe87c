import GridMq.PubSub.TrieCount
import Mathlib.Data.FinEnum
import Mathlib.Data.Finset.Card

set_option autoImplicit false

/-!
# Rearrangements of the pointer array

One lemma pair for each way `grid_trie_subscribe` and `grid_node_unsubscribe`
change the children of a node: what becomes of `kid`, and that the layout stays
well formed.  The dense child count `nbr` is the number of bytes that lead to a
child (`presentKids`), so it follows from the `kid` lemma alone.
-/

namespace GridMq.PubSub

/-- The bytes that lead to a child. -/
def presentKids (next : UInt8 → TrieNode) : Finset UInt8 :=
  Finset.univ.filter fun c => (next c).isNull = false

@[simp] theorem mem_presentKids {next : UInt8 → TrieNode} {c : UInt8} :
    c ∈ presentKids next ↔ (next c).isNull = false := by
  simp [presentKids]

/-- One more child: the count grows by one. -/
theorem card_presentKids_insert {next next' : UInt8 → TrieNode} {c : UInt8} {ch : TrieNode}
    (hold : (next c).isNull = true) (hch : ch.isNull = false)
    (hnext : ∀ c', next' c' = if c' = c then ch else next c') :
    (presentKids next').card = (presentKids next).card + 1 := by
  have hins : presentKids next' = insert c (presentKids next) := by
    ext c'
    by_cases hc : c' = c
    · simp [hnext, hc, hch]
    · simp [hnext, hc]
  rw [hins, Finset.card_insert_of_notMem]
  simp [hold]

/-- One child less: the count shrinks by one. -/
theorem card_presentKids_erase {next next' : UInt8 → TrieNode} {c : UInt8}
    (hold : (next c).isNull = false)
    (hnext : ∀ c', next' c' = if c' = c then .null else next c') :
    (presentKids next').card + 1 = (presentKids next).card := by
  have hera : presentKids next' = (presentKids next).erase c := by
    ext c'
    by_cases hc : c' = c
    · simp [hnext, hc, TrieNode.isNull]
    · simp [hnext, hc]
  rw [hera, Finset.card_erase_add_one]
  simp [hold]

/-! ## The dense layout, by byte -/

theorem kid_dense {min max nbr : Nat} {child : Nat → TrieNode} {c : UInt8}
    (hmin : min ≤ c.toNat) (hmax : c.toNat ≤ max) :
    kid (.dense min max nbr) child c = child (c.toNat - min) := by
  have : ¬ (c.toNat < min ∨ c.toNat > max) := by omega
  simp [kid, nodeNext, this]

theorem kid_dense_outside {min max nbr : Nat} {child : Nat → TrieNode} {c : UInt8}
    (h : c.toNat < min ∨ max < c.toNat) : kid (.dense min max nbr) child c = .null := by
  have : c.toNat < min ∨ c.toNat > max := h
  simp [kid, nodeNext, this]

theorem mem_presentSlots {child : Nat → TrieNode} {n i : Nat} :
    i ∈ presentSlots child n ↔ i < n ∧ (child i).isNull = false := by
  simp [presentSlots]

theorem presentSlots_nodup (child : Nat → TrieNode) (n : Nat) :
    (presentSlots child n).Nodup := List.nodup_range.filter _

/-- Counting the occupied slots of a dense array counts its children. -/
theorem length_presentSlots {min max : Nat} (nbr : Nat) (child : Nat → TrieNode)
    (hle : min ≤ max) (hmax : max < 256) :
    (presentSlots child (max - min + 1)).length =
      (presentKids (kid (.dense min max nbr) child)).card := by
  rw [← List.toFinset_card_of_nodup (presentSlots_nodup _ _)]
  refine Finset.card_nbij' (fun i => UInt8.ofNat (i + min)) (fun c => c.toNat - min)
    ?_ ?_ ?_ ?_
  · intro i hi
    simp only [List.coe_toFinset, Set.mem_ofPred_eq, mem_presentSlots] at hi
    have hval : (UInt8.ofNat (i + min)).toNat = i + min := by
      simp only [UInt8.toNat_ofNat']
      omega
    simp only [Finset.mem_coe, mem_presentKids]
    rw [kid_dense (by omega) (by omega), hval, Nat.add_sub_cancel]
    exact hi.2
  · intro c hc
    simp only [Finset.mem_coe, mem_presentKids] at hc
    simp only [List.coe_toFinset, Set.mem_ofPred_eq, mem_presentSlots]
    by_cases hr : c.toNat < min ∨ max < c.toNat
    · rw [kid_dense_outside hr] at hc
      simp [TrieNode.isNull] at hc
    · rw [kid_dense (by omega) (by omega)] at hc
      exact ⟨by omega, hc⟩
  · intro i hi
    simp only [List.coe_toFinset, Set.mem_ofPred_eq, mem_presentSlots] at hi
    simp only [UInt8.toNat_ofNat']
    omega
  · intro c hc
    simp only [Finset.mem_coe, mem_presentKids] at hc
    by_cases hr : c.toNat < min ∨ max < c.toNat
    · rw [kid_dense_outside hr] at hc
      simp [TrieNode.isNull] at hc
    · apply UInt8.toNat_inj.mp
      have := c.toNat_lt
      simp only [UInt8.toNat_ofNat']
      omega

/-! ## The sparse layout, by byte -/

theorem kid_sparse_getElem {children : List UInt8} {child : Nat → TrieNode}
    (hnd : children.Nodup) {i : Nat} (hi : i < children.length) :
    kid (.sparse children) child children[i] = child i := by
  have hfind : children.findIdx? (· == children[i]) = some i := by
    rw [List.findIdx?_eq_some_iff_getElem]
    refine ⟨hi, by simp, ?_⟩
    intro j hj
    simp only [beq_iff_eq]
    intro heq
    exact absurd ((List.Nodup.getElem_inj_iff hnd).mp heq) (by omega)
  simp [kid, nodeNext, hfind]

theorem kid_sparse_of_not_mem {children : List UInt8} {child : Nat → TrieNode} {c : UInt8}
    (h : c ∉ children) : kid (.sparse children) child c = .null := by
  have hfind : children.findIdx? (· == c) = none := by
    rw [List.findIdx?_eq_none_iff]
    intro x hx
    simp only [beq_eq_false_iff_ne, ne_eq]
    rintro rfl
    exact h hx
  simp [kid, nodeNext, hfind]

/-- In a well-formed sparse node a byte leads to a child exactly when listed. -/
theorem kid_sparse_isNull_iff {children : List UInt8} {child : Nat → TrieNode}
    (hwf : NodeLayout.WF (.sparse children) child) {c : UInt8} :
    (kid (.sparse children) child c).isNull = true ↔ c ∉ children := by
  constructor
  · intro h hmem
    obtain ⟨i, hi, rfl⟩ := List.getElem_of_mem hmem
    rw [kid_sparse_getElem hwf.1 hi, hwf.2.2 i hi] at h
    exact Bool.noConfusion h
  · intro h
    rw [kid_sparse_of_not_mem h]
    rfl

/-! ## The invariant of a node, by byte -/

/-- Every slot of a well-formed layout is reached by some byte. -/
theorem exists_kid_eq_slot {u : NodeLayout} {child : Nat → TrieNode} (hwf : u.WF child)
    {i : Nat} (hi : i < u.slots) : ∃ c, kid u child c = child i := by
  cases u with
  | sparse children => exact ⟨children[i], kid_sparse_getElem hwf.1 hi⟩
  | dense min max nbr =>
      obtain ⟨hle, hmax, -⟩ := hwf
      simp only [NodeLayout.slots] at hi
      have hval : (UInt8.ofNat (i + min)).toNat = i + min := by
        simp only [UInt8.toNat_ofNat']
        omega
      refine ⟨.ofNat (i + min), ?_⟩
      rw [kid_dense (by omega) (by omega), hval, Nat.add_sub_cancel]

theorem wf_node_iff {refcount : Nat} {pfx : List UInt8} {u : NodeLayout}
    {child : Nat → TrieNode} :
    (TrieNode.node refcount pfx u child).WF ↔
      pfx.length ≤ triePrefixMax ∧ u.WF child ∧ (u.type = 0 → 0 < refcount) ∧
        ∀ c, (kid u child c).WF := by
  constructor
  · rintro ⟨hp, hu, hr, hch⟩
    exact ⟨hp, hu, hr, kid_wf hch⟩
  · rintro ⟨hp, hu, hr, hkid⟩
    refine ⟨hp, hu, hr, ?_⟩
    intro i hi
    obtain ⟨c, hc⟩ := exists_kid_eq_slot hu hi
    rw [← hc]
    exact hkid c

/-! ## A child replaced by another -/

theorem wf_setChild {u : NodeLayout} {child : Nat → TrieNode} {c : UInt8} {i : Nat}
    {ch : TrieNode} (hwf : u.WF child) (hi : nodeNext u c = some i)
    (hold : (child i).isNull = false) (hch : ch.isNull = false) :
    u.WF (setChild child i ch) := by
  have hsame : ∀ j, (setChild child i ch j).isNull = (child j).isNull := by
    intro j
    by_cases hj : j = i
    · rw [hj, setChild_same, hch, hold]
    · rw [setChild_ne hj]
  cases u with
  | sparse children =>
      obtain ⟨hnd, hlen, hnn⟩ := hwf
      exact ⟨hnd, hlen, fun j hj => by rw [hsame, hnn j hj]⟩
  | dense min max nbr =>
      obtain ⟨hle, hmax, hlow, hhigh, hnbr, hmany⟩ := hwf
      refine ⟨hle, hmax, by rw [hsame, hlow], by rw [hsame, hhigh], ?_, hmany⟩
      rw [hnbr]
      congr 1
      simp only [presentSlots, hsame]

/-! ## A child added to a sparse array -/

theorem nodup_append_singleton {children : List UInt8} {c : UInt8}
    (hnd : children.Nodup) (hc : c ∉ children) : (children ++ [c]).Nodup := by
  rw [List.nodup_append]
  refine ⟨hnd, List.nodup_singleton c, ?_⟩
  intro a ha b hb hab
  rw [List.mem_singleton] at hb
  rw [hab, hb] at ha
  exact hc ha

theorem kid_sparse_append {children : List UInt8} {child : Nat → TrieNode} {c : UInt8}
    (hnd : children.Nodup) (hc : c ∉ children) (ch : TrieNode) (c' : UInt8) :
    kid (.sparse (children ++ [c])) (setChild child children.length ch) c' =
      if c' = c then ch else kid (.sparse children) child c' := by
  have hnd' : (children ++ [c]).Nodup := nodup_append_singleton hnd hc
  by_cases heq : c' = c
  · subst c'
    have hlt : children.length < (children ++ [c]).length := by simp
    have hlast : (children ++ [c])[children.length] = c := by simp
    have := @kid_sparse_getElem _ (setChild child children.length ch) hnd' _ hlt
    rw [hlast] at this
    rw [this, setChild_same, if_pos rfl]
  · rw [if_neg heq]
    by_cases hmem : c' ∈ children
    · obtain ⟨i, hi, rfl⟩ := List.getElem_of_mem hmem
      have hlt : i < (children ++ [c]).length := by simp; omega
      have hget : (children ++ [c])[i] = children[i] := by simp [hi]
      have := @kid_sparse_getElem _ (setChild child children.length ch) hnd' _ hlt
      rw [hget] at this
      rw [this, setChild_ne (by omega), kid_sparse_getElem hnd hi]
    · rw [kid_sparse_of_not_mem hmem, kid_sparse_of_not_mem]
      simp [hmem, heq]

theorem wf_sparse_append {children : List UInt8} {child : Nat → TrieNode} {c : UInt8}
    {ch : TrieNode} (hwf : NodeLayout.WF (.sparse children) child) (hc : c ∉ children)
    (hlen : children.length < trieSparseMax) (hch : ch.isNull = false) :
    NodeLayout.WF (.sparse (children ++ [c])) (setChild child children.length ch) := by
  obtain ⟨hnd, -, hnn⟩ := hwf
  refine ⟨nodup_append_singleton hnd hc, by simp; omega, ?_⟩
  · intro i hi
    simp only [List.length_append, List.length_singleton] at hi
    by_cases heq : i = children.length
    · rw [heq, setChild_same]
      exact hch
    · rw [setChild_ne heq]
      exact hnn i (by omega)

/-! ## A dense array from its children -/

/-- A dense layout is well formed as soon as both ends of its range lead to a
child and `nbr` counts the children. -/
theorem wf_dense {min max nbr : Nat} {child : Nat → TrieNode} (hle : min ≤ max)
    (hmax : max < 256)
    (hlow : ∃ c : UInt8, c.toNat = min ∧ (kid (.dense min max nbr) child c).isNull = false)
    (hhigh : ∃ c : UInt8, c.toNat = max ∧ (kid (.dense min max nbr) child c).isNull = false)
    (hnbr : nbr = (presentKids (kid (.dense min max nbr) child)).card)
    (hmany : trieSparseMax < nbr) : NodeLayout.WF (.dense min max nbr) child := by
  obtain ⟨c, hc, hcn⟩ := hlow
  obtain ⟨d, hd, hdn⟩ := hhigh
  rw [kid_dense (by omega) (by omega)] at hcn hdn
  refine ⟨hle, hmax, ?_, ?_, ?_, hmany⟩
  · simpa [hc] using hcn
  · simpa [hd] using hdn
  · rw [length_presentSlots nbr child hle hmax, ← hnbr]

/-- What `wf_dense` asks for, read back from a well-formed dense layout. -/
theorem wf_dense_iff {min max nbr : Nat} {child : Nat → TrieNode} :
    NodeLayout.WF (.dense min max nbr) child ↔
      min ≤ max ∧ max < 256 ∧
      (∃ c : UInt8, c.toNat = min ∧ (kid (.dense min max nbr) child c).isNull = false) ∧
      (∃ c : UInt8, c.toNat = max ∧ (kid (.dense min max nbr) child c).isNull = false) ∧
      nbr = (presentKids (kid (.dense min max nbr) child)).card ∧ trieSparseMax < nbr := by
  constructor
  · rintro ⟨hle, hmax, hlow, hhigh, hnbr, hmany⟩
    have hlowN : (UInt8.ofNat min).toNat = min := by
      simp only [UInt8.toNat_ofNat']
      omega
    have hhighN : (UInt8.ofNat max).toNat = max := by
      simp only [UInt8.toNat_ofNat']
      omega
    refine ⟨hle, hmax, ⟨.ofNat min, hlowN, ?_⟩, ⟨.ofNat max, hhighN, ?_⟩, ?_, hmany⟩
    · rw [kid_dense (by omega) (by omega), hlowN, Nat.sub_self]
      exact hlow
    · rw [kid_dense (by omega) (by omega), hhighN]
      exact hhigh
    · rw [← length_presentSlots nbr child hle hmax]
      exact hnbr
  · rintro ⟨hle, hmax, hlow, hhigh, hnbr, hmany⟩
    exact wf_dense hle hmax hlow hhigh hnbr hmany

/-! ## A full sparse array turned dense -/

/-- The running minimum and maximum of `denseRange`. -/
def rangeScan (children : List UInt8) (m : Nat × Nat) : Nat × Nat :=
  children.foldl (fun m c2 => (min m.1 c2.toNat, max m.2 c2.toNat)) m

theorem rangeScan_cons (y : UInt8) (children : List UInt8) (m : Nat × Nat) :
    rangeScan (y :: children) m = rangeScan children (min m.1 y.toNat, max m.2 y.toNat) := rfl

theorem rangeScan_bounds (children : List UInt8) (m : Nat × Nat) :
    (rangeScan children m).1 ≤ m.1 ∧ m.2 ≤ (rangeScan children m).2 ∧
      ∀ x ∈ children, (rangeScan children m).1 ≤ x.toNat ∧ x.toNat ≤ (rangeScan children m).2 := by
  induction children generalizing m with
  | nil => simp [rangeScan]
  | cons y children ih =>
      obtain ⟨hlo, hhi, hall⟩ := ih (min m.1 y.toNat, max m.2 y.toNat)
      rw [rangeScan_cons]
      refine ⟨by omega, by omega, ?_⟩
      intro x hx
      rcases List.mem_cons.mp hx with rfl | hx
      · omega
      · exact hall x hx

theorem rangeScan_low (children : List UInt8) (m : Nat × Nat) :
    (rangeScan children m).1 = m.1 ∨ ∃ x ∈ children, x.toNat = (rangeScan children m).1 := by
  induction children generalizing m with
  | nil => simp [rangeScan]
  | cons y children ih =>
      rw [rangeScan_cons]
      rcases ih (min m.1 y.toNat, max m.2 y.toNat) with h | ⟨x, hx, h⟩
      · rcases Nat.le_total m.1 y.toNat with hm | hm
        · exact Or.inl (by omega)
        · exact Or.inr ⟨y, List.mem_cons_self, by omega⟩
      · exact Or.inr ⟨x, List.mem_cons_of_mem y hx, h⟩

theorem rangeScan_high (children : List UInt8) (m : Nat × Nat) :
    (rangeScan children m).2 = m.2 ∨ ∃ x ∈ children, x.toNat = (rangeScan children m).2 := by
  induction children generalizing m with
  | nil => simp [rangeScan]
  | cons y children ih =>
      rw [rangeScan_cons]
      rcases ih (min m.1 y.toNat, max m.2 y.toNat) with h | ⟨x, hx, h⟩
      · rcases Nat.le_total m.2 y.toNat with hm | hm
        · exact Or.inr ⟨y, List.mem_cons_self, by omega⟩
        · exact Or.inl (by omega)
      · exact Or.inr ⟨x, List.mem_cons_of_mem y hx, h⟩

/-- The range of the new array reaches exactly from the smallest to the greatest
byte among the children and the new one. -/
theorem denseRange_spec (children : List UInt8) (c : UInt8) :
    (∀ x ∈ c :: children, (denseRange children c).1 ≤ x.toNat ∧
      x.toNat ≤ (denseRange children c).2) ∧
    (∃ x ∈ c :: children, x.toNat = (denseRange children c).1) ∧
    (∃ x ∈ c :: children, x.toNat = (denseRange children c).2) := by
  have hrange : denseRange children c =
      (min (rangeScan children (255, 0)).1 c.toNat, max (rangeScan children (255, 0)).2 c.toNat) :=
    rfl
  have hc := c.toNat_lt
  rw [hrange]
  refine ⟨?_, ?_, ?_⟩
  · obtain ⟨-, -, hall⟩ := rangeScan_bounds children (255, 0)
    intro x hx
    rcases List.mem_cons.mp hx with rfl | hx
    · omega
    · have := hall x hx
      omega
  · rcases rangeScan_low children (255, 0) with h | ⟨x, hx, h⟩
    · exact ⟨c, List.mem_cons_self, by omega⟩
    · rcases Nat.le_total c.toNat x.toNat with hm | hm
      · exact ⟨c, List.mem_cons_self, by omega⟩
      · exact ⟨x, List.mem_cons_of_mem c hx, by omega⟩
  · rcases rangeScan_high children (255, 0) with h | ⟨x, hx, h⟩
    · exact ⟨c, List.mem_cons_self, by omega⟩
    · rcases Nat.le_total c.toNat x.toNat with hm | hm
      · exact ⟨x, List.mem_cons_of_mem c hx, by omega⟩
      · exact ⟨c, List.mem_cons_self, by omega⟩

/-- The filled array holds each child in the slot of its byte. -/
theorem denseFill_eq (newMin : Nat) (children : List UInt8) (child : Nat → TrieNode)
    (hnd : children.Nodup) (hmin : ∀ x ∈ children, newMin ≤ x.toNat) (c : UInt8)
    (hc : newMin ≤ c.toNat) :
    denseFill newMin children child (c.toNat - newMin) = kid (.sparse children) child c := by
  induction children generalizing child with
  | nil => simp [denseFill]
  | cons y children ih =>
      have hy := hmin y List.mem_cons_self
      have hnd' := List.nodup_cons.mp hnd
      have htail := ih (fun i => child (i + 1)) hnd'.2
        fun x hx => hmin x (List.mem_cons_of_mem y hx)
      by_cases hcy : c = y
      · subst c
        have h0 := @kid_sparse_getElem _ child hnd 0 (by simp)
        simp only [List.getElem_cons_zero] at h0
        rw [denseFill, setChild_same, h0]
      · have hne : c.toNat - newMin ≠ y.toNat - newMin := by
          intro h
          exact hcy (UInt8.toNat_inj.mp (by omega))
        rw [denseFill, setChild_ne hne, htail]
        by_cases hmem : c ∈ children
        · obtain ⟨i, hi, rfl⟩ := List.getElem_of_mem hmem
          rw [kid_sparse_getElem hnd'.2 hi]
          have := @kid_sparse_getElem _ child hnd (i + 1) (by simpa using hi)
          simpa using this.symm
        · rw [kid_sparse_of_not_mem hmem, kid_sparse_of_not_mem]
          simp [hcy, hmem]

theorem kid_denseFill {children : List UInt8} {child : Nat → TrieNode} {c : UInt8}
    (hnd : children.Nodup) (ch : TrieNode) (nbr : Nat) (c' : UInt8) :
    kid (.dense (denseRange children c).1 (denseRange children c).2 nbr)
      (setChild (denseFill (denseRange children c).1 children child)
        (c.toNat - (denseRange children c).1) ch) c' =
      if c' = c then ch else kid (.sparse children) child c' := by
  obtain ⟨hall, -, -⟩ := denseRange_spec children c
  have hcr := hall c List.mem_cons_self
  have hmin : ∀ x ∈ children, (denseRange children c).1 ≤ x.toNat :=
    fun x hx => (hall x (List.mem_cons_of_mem c hx)).1
  by_cases hc : c' = c
  · subst c'
    rw [kid_dense hcr.1 hcr.2, setChild_same, if_pos rfl]
  · rw [if_neg hc]
    by_cases hr : c'.toNat < (denseRange children c).1 ∨ (denseRange children c).2 < c'.toNat
    · rw [kid_dense_outside hr, kid_sparse_of_not_mem]
      intro hmem
      have := hall c' (List.mem_cons_of_mem c hmem)
      omega
    · have hne : c'.toNat - (denseRange children c).1 ≠ c.toNat - (denseRange children c).1 := by
        intro h
        exact hc (UInt8.toNat_inj.mp (by omega))
      rw [kid_dense (by omega) (by omega), setChild_ne hne,
        denseFill_eq _ _ _ hnd hmin c' (by omega)]

theorem card_presentKids_sparse {children : List UInt8} {child : Nat → TrieNode}
    (hwf : NodeLayout.WF (.sparse children) child) :
    (presentKids (kid (.sparse children) child)).card = children.length := by
  have hset : presentKids (kid (.sparse children) child) = children.toFinset := by
    ext c
    rw [mem_presentKids, List.mem_toFinset, ← Bool.not_eq_true, kid_sparse_isNull_iff hwf,
      not_not]
  rw [hset, List.toFinset_card_of_nodup hwf.1]

/-- The slot of the new byte is empty, as step 4 asserts. -/
theorem denseFill_slot_isNull {children : List UInt8} {child : Nat → TrieNode} {c : UInt8}
    (hwf : NodeLayout.WF (.sparse children) child)
    (hc : (kid (.sparse children) child c).isNull = true) :
    (denseFill (denseRange children c).1 children child
      (c.toNat - (denseRange children c).1)).isNull = true := by
  obtain ⟨hall, -, -⟩ := denseRange_spec children c
  rw [denseFill_eq _ _ _ hwf.1 (fun x hx => (hall x (List.mem_cons_of_mem c hx)).1) c
    (hall c List.mem_cons_self).1]
  exact hc

theorem wf_denseFill {children : List UInt8} {child : Nat → TrieNode} {c : UInt8}
    {ch : TrieNode} (hwf : NodeLayout.WF (.sparse children) child) (hc : c ∉ children)
    (hlen : ¬ children.length < trieSparseMax) (hch : ch.isNull = false) :
    NodeLayout.WF (.dense (denseRange children c).1 (denseRange children c).2
        (children.length + 1))
      (setChild (denseFill (denseRange children c).1 children child)
        (c.toNat - (denseRange children c).1) ch) := by
  obtain ⟨hall, ⟨x, hx, hxlo⟩, ⟨y, hy, hyhi⟩⟩ := denseRange_spec children c
  have hkid := @kid_denseFill _ child c hwf.1 ch (children.length + 1)
  have hpresent : ∀ z ∈ c :: children,
      (kid (.dense (denseRange children c).1 (denseRange children c).2 (children.length + 1))
        (setChild (denseFill (denseRange children c).1 children child)
          (c.toNat - (denseRange children c).1) ch) z).isNull = false := by
    intro z hz
    rw [hkid]
    by_cases hzc : z = c
    · rw [if_pos hzc]
      exact hch
    · rw [if_neg hzc, ← Bool.not_eq_true, kid_sparse_isNull_iff hwf, not_not]
      exact (List.mem_cons.mp hz).resolve_left hzc
  have hylt := y.toNat_lt
  refine wf_dense ?_ (by omega) ⟨x, hxlo, hpresent x hx⟩ ⟨y, hyhi, hpresent y hy⟩ ?_ (by omega)
  · have := hall c List.mem_cons_self
    omega
  · rw [card_presentKids_insert ((kid_sparse_isNull_iff hwf).mpr hc) hch hkid,
      card_presentKids_sparse hwf]

/-! ## A child added to a dense array -/

/-- The range and the pointers of a dense array after room was made for `c`. -/
theorem kid_denseWiden {min max nbr : Nat} {child : Nat → TrieNode} {c : UInt8}
    (hle : min ≤ max) (ch : TrieNode) (nbr' : Nat) (c' : UInt8) :
    let newMin := if min < c.toNat then min else c.toNat
    let newMax := if max > c.toNat then max else c.toNat
    let child' := if c.toNat < min ∨ c.toNat > max then denseWiden min max newMin child else child
    kid (.dense newMin newMax nbr') (setChild child' (c.toNat - newMin) ch) c' =
      if c' = c then ch else kid (.dense min max nbr) child c' := by
  intro newMin newMax child'
  have hmin : newMin ≤ min ∧ newMin ≤ c.toNat := by
    simp only [newMin]; split <;> omega
  have hmax : max ≤ newMax ∧ c.toNat ≤ newMax := by
    simp only [newMax]; split <;> omega
  have hends : (newMin = min ∨ newMin = c.toNat) ∧ (newMax = max ∨ newMax = c.toNat) := by
    simp only [newMin, newMax]
    constructor <;> split <;> simp
  -- the old pointers are found `min - newMin` slots further up, all others are NULL
  have hold : ∀ x : UInt8, newMin ≤ x.toNat → x.toNat ≤ newMax → x ≠ c →
      child' (x.toNat - newMin) = kid (.dense min max nbr) child x := by
    intro x hlo hhi hx
    have hxc : x.toNat ≠ c.toNat := fun h => hx (UInt8.toNat_inj.mp h)
    by_cases hr : x.toNat < min ∨ max < x.toNat
    · rw [kid_dense_outside hr]
      have hc : c.toNat < min ∨ c.toNat > max := by omega
      simp only [child', if_pos hc, denseWiden]
      split
      · rfl
      · rw [if_neg (by omega)]
    · rw [kid_dense (by omega) (by omega)]
      simp only [child']
      split
      · simp only [denseWiden]
        rw [if_neg (by omega), if_pos (by omega)]
        congr 1
        omega
      · congr 1
        omega
  by_cases hc : c' = c
  · subst c'
    rw [kid_dense hmin.2 hmax.2, setChild_same, if_pos rfl]
  · rw [if_neg hc]
    by_cases hr : c'.toNat < newMin ∨ newMax < c'.toNat
    · rw [kid_dense_outside hr, kid_dense_outside (by omega)]
    · have hne : c'.toNat - newMin ≠ c.toNat - newMin := by
        intro h
        exact hc (UInt8.toNat_inj.mp (by omega))
      rw [kid_dense (by omega) (by omega), setChild_ne hne, hold c' (by omega) (by omega) hc]

/-- The slot of the new byte is empty, as step 4 asserts. -/
theorem denseWiden_slot_isNull {min max nbr : Nat} {child : Nat → TrieNode} {c : UInt8}
    (hwf : NodeLayout.WF (.dense min max nbr) child)
    (hc : (kid (.dense min max nbr) child c).isNull = true) :
    let newMin := if min < c.toNat then min else c.toNat
    ((if c.toNat < min ∨ c.toNat > max then denseWiden min max newMin child else child)
      (c.toNat - newMin)).isNull = true := by
  intro newMin
  have hle := hwf.1
  by_cases hr : c.toNat < min ∨ c.toNat > max
  · rw [if_pos hr]
    by_cases hlt : min < c.toNat
    · simp only [denseWiden, newMin, if_pos hlt]
      rw [if_neg (by omega), if_neg (by omega)]
      rfl
    · simp only [denseWiden, newMin, if_neg hlt]
      rw [if_pos (by omega)]
      rfl
  · have hlo : newMin = min := by
      simp only [newMin]
      split <;> omega
    rw [if_neg hr, hlo]
    rw [kid_dense (by omega) (by omega)] at hc
    exact hc

theorem wf_denseWiden {min max nbr : Nat} {child : Nat → TrieNode} {c : UInt8} {ch : TrieNode}
    (hwf : NodeLayout.WF (.dense min max nbr) child)
    (hc : (kid (.dense min max nbr) child c).isNull = true) (hch : ch.isNull = false) :
    let newMin := if min < c.toNat then min else c.toNat
    let newMax := if max > c.toNat then max else c.toNat
    let child' := if c.toNat < min ∨ c.toNat > max then denseWiden min max newMin child else child
    NodeLayout.WF (.dense newMin newMax (nbr + 1)) (setChild child' (c.toNat - newMin) ch) := by
  intro newMin newMax child'
  obtain ⟨hle, hmax, ⟨x, hx, hxn⟩, ⟨y, hy, hyn⟩, hnbr, hmany⟩ := wf_dense_iff.mp hwf
  have hclt := c.toNat_lt
  have hkid := @kid_denseWiden _ _ nbr child c hle ch (nbr + 1)
  simp only at hkid
  have hpresent : ∀ z, z = c ∨ (kid (.dense min max nbr) child z).isNull = false →
      (kid (.dense newMin newMax (nbr + 1)) (setChild child' (c.toNat - newMin) ch) z).isNull =
        false := by
    intro z hz
    rw [hkid]
    split
    · exact hch
    · rename_i hzc
      exact hz.resolve_left hzc
  refine wf_dense (by simp only [newMin, newMax]; split <;> split <;> omega)
    (by simp only [newMax]; split <;> omega) ?_ ?_ ?_ (by omega)
  · by_cases hlt : min < c.toNat
    · exact ⟨x, by simp only [newMin, if_pos hlt, hx], hpresent x (Or.inr hxn)⟩
    · exact ⟨c, by simp only [newMin, if_neg hlt], hpresent c (Or.inl rfl)⟩
  · by_cases hlt : max > c.toNat
    · exact ⟨y, by simp only [newMax, if_pos hlt, hy], hpresent y (Or.inr hyn)⟩
    · exact ⟨c, by simp only [newMax, if_neg hlt], hpresent c (Or.inl rfl)⟩
  · rw [card_presentKids_insert hc hch hkid, ← hnbr]

end GridMq.PubSub
