import GridMq.PubSub.TrieSubscribe

set_option autoImplicit false

/-!
# What `grid_node_unsubscribe` does to the stored strings

On a well-formed trie that stores the string the call returns, keeps the
invariant and counts the string once less.  `unsubscribeDrops` records what it
also does: when the last string below a byte goes and leaves eight children in a
dense node, the node is copied into a sparse one with reference count 0.
-/

namespace GridMq.PubSub

/-- A dense array that turns sparse when it loses a child. -/
def NodeLayout.isBarelyDense : NodeLayout → Bool
  | .sparse _ => false
  | .dense _ _ nbr => !(nbr > trieSparseMax + 1)

/-- Whether a node stores the string once and nothing else, so that unsubscribing
from it deletes the node. -/
def storesOnly : TrieNode → List UInt8 → Bool
  | .null, _ => false
  | .node refcount pfx u child, s =>
      if pfx <+: s then
        match s.drop pfx.length with
        | [] => refcount == 1 && u.type == 0
        | c :: rest =>
            refcount == 0 && u.type == 1 &&
              match nodeNext u c with
              | none => false
              | some i => storesOnly (child i) rest
      else false

/-- The string whose count is lost by unsubscribing from `s`: the node it ends at
holds subscriptions and is turned into a sparse one. -/
def unsubscribeDrops : TrieNode → List UInt8 → Option (List UInt8)
  | .null, _ => none
  | .node refcount pfx u child, s =>
      if pfx <+: s then
        match s.drop pfx.length with
        | [] => none
        | c :: rest =>
            match nodeNext u c with
            | none => none
            | some i =>
                if storesOnly (child i) rest then
                  if u.isBarelyDense && nodeHasSubscribers refcount then some pfx else none
                else (unsubscribeDrops (child i) rest).map fun t => pfx ++ c :: t
      else none

/-! ## A child removed from a sparse array -/

theorem kid_sparse_eraseIdx {children : List UInt8} {child : Nat → TrieNode} {c : UInt8}
    {index : Nat} (hnd : children.Nodup) (hi : index < children.length)
    (hc : children[index] = c) (c' : UInt8) :
    kid (.sparse (children.eraseIdx index))
        (fun i => if i < index then child i else child (i + 1)) c' =
      if c' = c then .null else kid (.sparse children) child c' := by
  have hnd' : (children.eraseIdx index).Nodup := hnd.sublist (List.eraseIdx_sublist _ _)
  have hlen : (children.eraseIdx index).length = children.length - 1 :=
    List.length_eraseIdx_of_lt hi
  by_cases heq : c' = c
  · rw [if_pos heq, kid_sparse_of_not_mem]
    rw [List.mem_eraseIdx_iff_getElem]
    rintro ⟨j, hj, hne, hget⟩
    have : children[j] = children[index] := by rw [hget, heq, hc]
    exact hne ((List.Nodup.getElem_inj_iff hnd).mp this)
  · rw [if_neg heq]
    by_cases hmem : c' ∈ children
    · obtain ⟨j, hj, rfl⟩ := List.getElem_of_mem hmem
      have hne : j ≠ index := by
        rintro rfl
        exact heq hc
      rw [kid_sparse_getElem hnd hj]
      rcases Nat.lt_or_gt_of_ne hne with hlt | hgt
      · have hj' : j < (children.eraseIdx index).length := by omega
        have := @kid_sparse_getElem _
          (fun i => if i < index then child i else child (i + 1)) hnd' _ hj'
        rw [List.getElem_eraseIdx_of_lt hj' hlt] at this
        rw [this, if_pos hlt]
      · have hj' : j - 1 < (children.eraseIdx index).length := by omega
        have := @kid_sparse_getElem _
          (fun i => if i < index then child i else child (i + 1)) hnd' _ hj'
        rw [List.getElem_eraseIdx_of_ge hj' (by omega)] at this
        have hj1 : j - 1 + 1 = j := by omega
        simp only [hj1] at this
        rw [this, if_neg (by omega)]
    · rw [kid_sparse_of_not_mem hmem, kid_sparse_of_not_mem]
      exact fun h => hmem ((List.eraseIdx_subset) h)

theorem wf_sparse_eraseIdx {children : List UInt8} {child : Nat → TrieNode} {index : Nat}
    (hnd : children.Nodup) (hlen : children.length ≤ trieSparseMax)
    (hnn : ∀ i, i < children.length → i ≠ index → (child i).isNull = false)
    (hi : index < children.length) :
    NodeLayout.WF (.sparse (children.eraseIdx index))
      (fun i => if i < index then child i else child (i + 1)) := by
  have hlen' : (children.eraseIdx index).length = children.length - 1 :=
    List.length_eraseIdx_of_lt hi
  refine ⟨hnd.sublist (List.eraseIdx_sublist _ _), by omega, ?_⟩
  intro i hi'
  by_cases hlt : i < index
  · simp only [if_pos hlt]
    exact hnn i (by omega) (by omega)
  · simp only [if_neg hlt]
    exact hnn (i + 1) (by omega) (by omega)

/-! ## A dense array with a smaller range -/

/-- Slots cut off at the ends of a dense array that hold no child are not
missed. -/
theorem kid_denseTrim {min max lo hi nbr nbr' : Nat} {child : Nat → TrieNode}
    (hlo : min ≤ lo) (hhi : hi ≤ max)
    (hout : ∀ c : UInt8, min ≤ c.toNat → c.toNat ≤ max → c.toNat < lo ∨ hi < c.toNat →
      child (c.toNat - min) = .null) (c : UInt8) :
    kid (.dense lo hi nbr') (fun j => child (j + (lo - min))) c =
      kid (.dense min max nbr) child c := by
  by_cases hr : c.toNat < lo ∨ hi < c.toNat
  · rw [kid_dense_outside hr]
    by_cases hr' : c.toNat < min ∨ max < c.toNat
    · rw [kid_dense_outside hr']
    · rw [kid_dense (by omega) (by omega), hout c (by omega) (by omega) hr]
  · rw [kid_dense (by omega) (by omega), kid_dense (by omega) (by omega)]
    congr 1
    omega

theorem wf_denseTrim {min max lo hi nbr nbr' : Nat} {child : Nat → TrieNode} (hmax : max < 256)
    (hlo : min ≤ lo) (hle : lo ≤ hi) (hhi : hi ≤ max)
    (hout : ∀ c : UInt8, min ≤ c.toNat → c.toNat ≤ max → c.toNat < lo ∨ hi < c.toNat →
      child (c.toNat - min) = .null)
    (hlow : (child (lo - min)).isNull = false) (hhigh : (child (hi - min)).isNull = false)
    (hnbr : nbr' = (presentKids (kid (.dense min max nbr) child)).card)
    (hmany : trieSparseMax < nbr') :
    NodeLayout.WF (.dense lo hi nbr') (fun j => child (j + (lo - min))) := by
  have hkid := @kid_denseTrim _ _ _ _ nbr nbr' _ hlo hhi hout
  refine ⟨hle, by omega, by simpa using hlow, ?_, ?_, hmany⟩
  · have : hi - lo + (lo - min) = hi - min := by omega
    simpa only [this] using hhigh
  · have hsame : kid (.dense lo hi nbr') (fun j => child (j + (lo - min))) =
        kid (.dense min max nbr) child := funext hkid
    rw [length_presentSlots nbr' _ hle (by omega), hsame]
    exact hnbr

/-- The last index the scan from the right stops at. -/
theorem find?_reverse_range {n i : Nat} {p : Nat → Bool}
    (h : (List.range n).reverse.find? p = some i) :
    p i = true ∧ i < n ∧ ∀ j, i < j → j < n → p j = false := by
  induction n with
  | zero => simp at h
  | succ n ih =>
      rw [List.range_succ, List.reverse_append, List.reverse_singleton, List.singleton_append,
        List.find?_cons] at h
      split at h
      · rename_i hp
        obtain rfl : n = i := by simpa using h
        exact ⟨hp, by omega, fun j h1 h2 => by omega⟩
      · rename_i hp
        obtain ⟨hpi, hlt, hall⟩ := ih h
        refine ⟨hpi, by omega, ?_⟩
        intro j h1 h2
        by_cases hj : j = n
        · rw [hj]
          exact hp
        · exact hall j h1 (by omega)

/-! ## A dense array turned sparse -/

theorem kid_presentSlots {min max nbr : Nat} {child : Nat → TrieNode} (hle : min ≤ max)
    (hmax : max < 256) (c : UInt8) :
    let present := presentSlots child (max - min + 1)
    kid (.sparse (present.map fun i => UInt8.ofNat (i + min)))
        (fun j => (present[j]?.map child).getD .null) c =
      kid (.dense min max nbr) child c := by
  intro present
  have hslot : ∀ i ∈ present, (UInt8.ofNat (i + min)).toNat = i + min := by
    intro i hi
    have := (mem_presentSlots.mp hi).1
    simp only [UInt8.toNat_ofNat']
    omega
  have hnd : (present.map fun i => UInt8.ofNat (i + min)).Nodup := by
    refine List.Nodup.map_on ?_ (presentSlots_nodup _ _)
    intro i hi j hj hij
    have := congrArg UInt8.toNat hij
    rw [hslot i hi, hslot j hj] at this
    omega
  by_cases hmem : ∃ i ∈ present, UInt8.ofNat (i + min) = c
  · obtain ⟨i, hi, hic⟩ := hmem
    have hlt := (mem_presentSlots.mp hi).1
    have hval := hslot i hi
    rw [hic] at hval
    obtain ⟨j, hj, rfl⟩ := List.getElem_of_mem hi
    have hget := @kid_sparse_getElem _ (fun j => (present[j]?.map child).getD .null)
      hnd j (by simpa using hj)
    rw [List.getElem_map, hic] at hget
    rw [hget, kid_dense (by omega) (by omega), hval, Nat.add_sub_cancel]
    simp [hj]
  · rw [kid_sparse_of_not_mem (by simpa using hmem)]
    by_cases hr : c.toNat < min ∨ max < c.toNat
    · rw [kid_dense_outside hr]
    · rw [kid_dense (by omega) (by omega)]
      by_cases hnull : (child (c.toNat - min)).isNull = true
      · exact (isNull_iff.mp hnull).symm
      · refine absurd ⟨c.toNat - min, ?_, ?_⟩ hmem
        · exact mem_presentSlots.mpr ⟨by omega, by simpa using hnull⟩
        · rw [Nat.sub_add_cancel (by omega)]
          exact UInt8.ofNat_toNat

theorem wf_presentSlots {min max : Nat} {child : Nat → TrieNode}
    (hmax : max < 256)
    (hlen : (presentSlots child (max - min + 1)).length ≤ trieSparseMax) :
    let present := presentSlots child (max - min + 1)
    NodeLayout.WF (.sparse (present.map fun i => UInt8.ofNat (i + min)))
      (fun j => (present[j]?.map child).getD .null) := by
  intro present
  refine ⟨?_, by simpa using hlen, ?_⟩
  · refine List.Nodup.map_on ?_ (presentSlots_nodup _ _)
    intro i hi j hj hij
    have hi' := (mem_presentSlots.mp hi).1
    have hj' := (mem_presentSlots.mp hj).1
    have := congrArg UInt8.toNat hij
    simp only [UInt8.toNat_ofNat'] at this
    omega
  · intro j hj
    have hj' : j < present.length := by simpa using hj
    simp only [List.getElem?_eq_getElem hj', Option.map_some, Option.getD_some]
    exact (mem_presentSlots.mp (List.getElem_mem hj')).2

/-! ## Closing the gap -/

/-- What a node stores once nothing is left below `c`. -/
theorem count_prune {refcount refcount' : Nat} {pfx : List UInt8} {u u' : NodeLayout}
    {child child' : Nat → TrieNode} {c : UInt8}
    (hkid : ∀ c', kid u' child' c' = if c' = c then .null else kid u child c')
    (s : List UInt8) :
    count (.node refcount' pfx u' child') s =
      if pfx ++ [c] <+: s then 0
      else if s = pfx then refcount' else count (.node refcount pfx u child) s := by
  by_cases hs : pfx <+: s
  · obtain ⟨t, rfl⟩ := hs
    rw [count_append, count_append]
    cases t with
    | nil =>
        have hlong : ¬ pfx ++ [c] <+: pfx := by
          intro h
          have := h.length_le
          rw [List.length_append, List.length_singleton] at this
          omega
        simp [below, hlong]
    | cons d t =>
        rw [below, below, hkid]
        by_cases hd : d = c
        · simp [hd]
        · simp [hd, Ne.symm hd]
  · have h1 : ¬ pfx ++ [c] <+: s := fun h => hs ((List.prefix_append pfx [c]).trans h)
    have h2 : s ≠ pfx := by
      rintro rfl
      exact hs List.prefix_rfl
    rw [if_neg h1, if_neg h2, count_off_path hs, count_off_path hs]

/-- Pruning a sparse node. -/
theorem unsubscribePrune_sparse {refcount : Nat} {pfx children : List UInt8}
    {child : Nat → TrieNode} {c : UInt8} {i : Nat}
    (hwf : (TrieNode.node refcount pfx (.sparse children) child).WF)
    (hi : nodeNext (.sparse children) c = some i) :
    ∃ n, unsubscribePrune refcount pfx (.sparse children) (setChild child i .null) c = .ok n ∧
      n.WF ∧ n.isNull = (refcount == 0 && children.length == 1) ∧
      ∀ s, count n s =
        if pfx ++ [c] <+: s then 0
        else if s = pfx then refcount else count (.node refcount pfx (.sparse children) child) s := by
  obtain ⟨hp, ⟨hnd, hlen, hnn⟩, -, hkidwf⟩ := wf_node_iff.mp hwf
  have hfind : children.findIdx? (· == c) = some i := hi
  obtain ⟨hlt, hget, -⟩ := List.findIdx?_eq_some_iff_getElem.mp hfind
  simp only [beq_iff_eq] at hget
  have hlen' : (children.eraseIdx i).length = children.length - 1 :=
    List.length_eraseIdx_of_lt hlt
  have hkid : ∀ c', kid (.sparse (children.eraseIdx i))
      (fun j => if j < i then setChild child i .null j else setChild child i .null (j + 1)) c' =
        if c' = c then .null else kid (.sparse children) child c' := by
    intro c'
    rw [kid_sparse_eraseIdx hnd hlt hget, kid_setChild hi]
    split <;> rfl
  have hcount := fun s => @count_prune refcount refcount pfx _ _ _ _ _ hkid s
  have hlayout : NodeLayout.WF (.sparse (children.eraseIdx i))
      (fun j => if j < i then setChild child i .null j else setChild child i .null (j + 1)) := by
    refine wf_sparse_eraseIdx hnd hlen ?_ hlt
    intro j hj hne
    rw [setChild_ne hne]
    exact hnn j hj
  by_cases hgone : children.eraseIdx i = [] ∧ ¬ nodeHasSubscribers refcount = true
  · have hr : refcount = 0 := by simpa [nodeHasSubscribers] using hgone.2
    have hone : children.length = 1 := by
      have := congrArg List.length hgone.1
      rw [hlen', List.length_nil] at this
      omega
    refine ⟨.null, by simp only [unsubscribePrune, hfind, if_pos hgone], trivial,
      by simp [hr, hone, TrieNode.isNull], ?_⟩
    intro s
    rw [← hcount, hgone.1, hr]
    by_cases hs : pfx <+: s
    · obtain ⟨t, rfl⟩ := hs
      rw [count_append]
      cases t <;> simp [below]
    · rw [count_off_path hs, count_null]
  · have hnodewf : (TrieNode.node refcount pfx (.sparse (children.eraseIdx i))
        fun j => if j < i then setChild child i .null j else setChild child i .null (j + 1)).WF := by
      refine wf_node_iff.mpr ⟨hp, hlayout, ?_, ?_⟩
      · intro htype
        have hnil : children.eraseIdx i = [] := List.eq_nil_of_length_eq_zero htype
        have hsub : nodeHasSubscribers refcount = true := by
          by_contra h
          exact hgone ⟨hnil, h⟩
        simp only [nodeHasSubscribers, bne_iff_ne, ne_eq] at hsub
        omega
      · intro c'
        rw [hkid]
        split
        · trivial
        · exact hkidwf c'
    obtain ⟨n, heq, hnull, hnwf, hncount⟩ := nodeCompact_spec hnodewf
    refine ⟨n, by simp only [unsubscribePrune, hfind, if_neg hgone, heq], hnwf, ?_, ?_⟩
    · rw [hnull]
      symm
      simp only [Bool.and_eq_false_iff, beq_eq_false_iff_ne, ne_eq]
      by_cases hr : refcount = 0
      · right
        intro hone
        refine hgone ⟨List.eq_nil_of_length_eq_zero (by omega), by simp [nodeHasSubscribers, hr]⟩
      · exact Or.inl hr
    · intro s
      rw [hncount, hcount]

/-- Pruning a dense node: it never goes away, and its own count is kept unless
it turns sparse. -/
theorem unsubscribePrune_dense {refcount min max nbr : Nat} {pfx : List UInt8}
    {child : Nat → TrieNode} {c : UInt8} {i : Nat}
    (hwf : (TrieNode.node refcount pfx (.dense min max nbr) child).WF)
    (hi : nodeNext (.dense min max nbr) c = some i) (hold : (child i).isNull = false) :
    ∃ n, unsubscribePrune refcount pfx (.dense min max nbr) (setChild child i .null) c = .ok n ∧
      n.WF ∧ n.isNull = false ∧
      ∀ s, count n s =
        if pfx ++ [c] <+: s then 0
        else if s = pfx then (if nbr > trieSparseMax + 1 then refcount else 0)
        else count (.node refcount pfx (.dense min max nbr) child) s := by
  obtain ⟨hp, hu, -, hkidwf⟩ := wf_node_iff.mp hwf
  obtain ⟨hle, hmax, ⟨x, hx, hxn⟩, ⟨y, hy, hyn⟩, hnbr, hmany⟩ := wf_dense_iff.mp hu
  have hkid1 := @kid_setChild _ child _ _ hi .null
  have hkidc : (kid (.dense min max nbr) child c).isNull = false := by
    simpa [kid, hi] using hold
  have hcard := card_presentKids_erase hkidc hkid1
  rw [← hnbr] at hcard
  have hsparse : trieSparseMax = 8 := rfl
  -- every new layout with these children stores the same
  have hdone : ∀ (u' : NodeLayout) (child' : Nat → TrieNode) (r' : Nat),
      (∀ c', kid u' child' c' = kid (.dense min max nbr) (setChild child i .null) c') →
      u'.WF child' → (u'.type = 0 → 0 < r') →
      (TrieNode.node r' pfx u' child').WF ∧
        ∀ s, count (.node r' pfx u' child') s =
          if pfx ++ [c] <+: s then 0
          else if s = pfx then r' else count (.node refcount pfx (.dense min max nbr) child) s := by
    intro u' child' r' hk hlayout htype
    have hk' : ∀ c', kid u' child' c' =
        if c' = c then .null else kid (.dense min max nbr) child c' :=
      fun c' => (hk c').trans (hkid1 c')
    refine ⟨wf_node_iff.mpr ⟨hp, hlayout, htype, ?_⟩, fun s => count_prune hk' s⟩
    intro c'
    rw [hk']
    split
    · trivial
    · exact hkidwf c'
  have hslot : ∀ z : UInt8, min ≤ z.toNat → z.toNat ≤ max → z ≠ c →
      setChild child i .null (z.toNat - min) = kid (.dense min max nbr) child z := by
    intro z hlo hhi hz
    rw [← @kid_dense _ _ nbr (setChild child i .null) _ hlo hhi, hkid1, if_neg hz]
  -- some other child stays, so the two ends of the range cannot both go
  obtain ⟨z, hzc, hzlo, hzhi⟩ : ∃ z : UInt8, z ≠ c ∧ min ≤ z.toNat ∧ z.toNat ≤ max := by
    have hpos : 0 < (presentKids (kid (.dense min max nbr) (setChild child i .null))).card := by
      omega
    obtain ⟨z, hz⟩ := Finset.card_pos.mp hpos
    rw [mem_presentKids, hkid1] at hz
    have hzc : z ≠ c := by
      rintro rfl
      simp [TrieNode.isNull] at hz
    rw [if_neg hzc] at hz
    by_cases hr : z.toNat < min ∨ max < z.toNat
    · rw [kid_dense_outside hr] at hz
      exact Bool.noConfusion hz
    · exact ⟨z, hzc, by omega, by omega⟩
  have hzne : z.toNat ≠ c.toNat := fun h => hzc (UInt8.toNat_inj.mp h)
  by_cases hstay : nbr > trieSparseMax + 1
  · -- the array stays dense and may be trimmed
    rw [if_pos hstay]
    have htrim : ∀ lo hi : Nat, min ≤ lo → lo ≤ hi → hi ≤ max →
        (∀ z : UInt8, min ≤ z.toNat → z.toNat ≤ max → z.toNat < lo ∨ hi < z.toNat →
          setChild child i .null (z.toNat - min) = .null) →
        (setChild child i .null (lo - min)).isNull = false →
        (setChild child i .null (hi - min)).isNull = false →
        (TrieNode.node refcount pfx (.dense lo hi (nbr - 1))
            fun j => setChild child i .null (j + (lo - min))).WF ∧
          ∀ s, count (.node refcount pfx (.dense lo hi (nbr - 1))
              fun j => setChild child i .null (j + (lo - min))) s =
            if pfx ++ [c] <+: s then 0
            else if s = pfx then refcount
            else count (.node refcount pfx (.dense min max nbr) child) s := by
      intro lo hi hlo hle' hhi hout hlow hhigh
      exact hdone _ _ _ (kid_denseTrim hlo hhi hout)
        (@wf_denseTrim _ _ _ _ nbr _ _ hmax hlo hle' hhi hout hlow hhigh (by omega) (by omega))
        (by simp [NodeLayout.type, trieDenseType])
    by_cases hcmin : c.toNat = min
    · -- trimmed from the left, up to the first slot in use
      have hyc : y ≠ c := by
        rintro rfl
        omega
      have hylast : (setChild child i .null (max - min)).isNull = false := by
        rw [← hy, hslot y (by omega) (by omega) hyc]
        exact hyn
      obtain ⟨k, hk⟩ : ∃ k, (List.range (max - min + 1)).find?
          (fun j => !(setChild child i .null j).isNull) = some k := by
        rw [← Option.isSome_iff_exists, List.find?_isSome]
        exact ⟨max - min, by simp, by simpa using hylast⟩
      obtain ⟨hkn, hkmem, hkfirst⟩ := List.find?_range_eq_some.mp hk
      simp only [Bool.not_eq_eq_eq_not, Bool.not_true, List.mem_range] at hkn hkmem
      have hkeep := htrim (k + min) max (by omega) (by omega) (Nat.le_refl _) (by
          intro z hzlo hzhi hzout
          have := hkfirst (z.toNat - min) (by omega)
          simpa [isNull_iff] using this)
        (by simpa using hkn) hylast
      rw [Nat.add_sub_cancel] at hkeep
      refine ⟨_, ?_, hkeep.1, rfl, hkeep.2⟩
      simp only [unsubscribePrune, if_pos hstay, if_pos hcmin, hk, Option.getD_some]
    · have hxc : x ≠ c := by
        rintro rfl
        exact hcmin hx
      have hxfirst : (setChild child i .null 0).isNull = false := by
        have := hslot x (by omega) (by omega) hxc
        rw [hx, Nat.sub_self] at this
        rw [this]
        exact hxn
      by_cases hcmax : c.toNat = max
      · -- trimmed from the right, down to the last slot in use
        obtain ⟨k, hk⟩ : ∃ k, (List.range (max - min + 1)).reverse.find?
            (fun j => j == 0 || !(setChild child i .null j).isNull) = some k := by
          rw [← Option.isSome_iff_exists, List.find?_isSome]
          exact ⟨0, by simp, by simp⟩
        obtain ⟨hkn, hkmem, hklast⟩ := find?_reverse_range hk
        have hkn' : (setChild child i .null k).isNull = false := by
          by_cases hk0 : k = 0
          · rw [hk0]
            exact hxfirst
          · simpa [hk0] using hkn
        have hkeep := htrim min (k + min) (Nat.le_refl _) (by omega) (by omega) (by
            intro z hzlo hzhi hzout
            have := hklast (z.toNat - min) (by omega) (by omega)
            simp only [Bool.or_eq_false_iff, Bool.not_eq_eq_eq_not, Bool.not_false] at this
            exact isNull_iff.mp this.2)
          (by simpa using hxfirst) (by simpa using hkn')
        simp only [Nat.sub_self, Nat.add_zero] at hkeep
        refine ⟨_, ?_, hkeep.1, rfl, hkeep.2⟩
        simp only [unsubscribePrune, if_pos hstay, if_neg hcmin, if_pos hcmax, hk,
          Option.getD_some]
      · -- removed from the middle
        have hyc : y ≠ c := by
          rintro rfl
          exact hcmax hy
        have hkeep := htrim min max (Nat.le_refl _) hle (Nat.le_refl _) (by
            intro z hzlo hzhi hzout
            omega)
          (by simpa using hxfirst) (by
            rw [← hy, hslot y (by omega) (by omega) hyc]
            exact hyn)
        simp only [Nat.sub_self, Nat.add_zero] at hkeep
        refine ⟨_, ?_, hkeep.1, rfl, hkeep.2⟩
        simp only [unsubscribePrune, if_pos hstay, if_neg hcmin, if_neg hcmax]
  · -- the array turns sparse
    rw [if_neg hstay]
    have hlen : (presentSlots (setChild child i .null) (max - min + 1)).length =
        trieSparseMax := by
      rw [length_presentSlots nbr _ hle hmax]
      omega
    have hlayout := wf_presentSlots hmax (Nat.le_of_eq hlen)
    have hkid := @kid_presentSlots _ _ nbr (setChild child i .null) hle hmax
    simp only at hlayout hkid
    obtain ⟨hnwf, hcount⟩ := hdone _ _ 0 hkid hlayout (by
      rw [NodeLayout.type, List.length_map, hlen]
      simp [trieSparseMax])
    refine ⟨_, ?_, hnwf, rfl, hcount⟩
    simp only [unsubscribePrune, if_neg hstay, if_pos hlen]

/-- Closing the gap left by a removed child: only the conversion of a dense array
also drops the count of the node itself. -/
theorem unsubscribePrune_spec {refcount : Nat} {pfx : List UInt8} {u : NodeLayout}
    {child : Nat → TrieNode} {c : UInt8} {i : Nat}
    (hwf : (TrieNode.node refcount pfx u child).WF) (hi : nodeNext u c = some i)
    (hold : (child i).isNull = false) :
    ∃ n, unsubscribePrune refcount pfx u (setChild child i .null) c = .ok n ∧ n.WF ∧
      n.isNull = (refcount == 0 && u.type == 1) ∧
      ∀ s, count n s =
        if pfx ++ [c] <+: s then 0
        else if s = pfx then (if u.isBarelyDense then 0 else refcount)
        else count (.node refcount pfx u child) s := by
  cases u with
  | sparse children => exact unsubscribePrune_sparse hwf hi
  | dense min max nbr =>
      obtain ⟨n, heq, hnwf, hnull, hcount⟩ := unsubscribePrune_dense hwf hi hold
      refine ⟨n, heq, hnwf, by simp [hnull, NodeLayout.type, trieDenseType, trieSparseMax], ?_⟩
      intro s
      rw [hcount]
      by_cases hstay : nbr > trieSparseMax + 1 <;> simp [NodeLayout.isBarelyDense, hstay]

/-! ## The whole call -/

/-- What becomes of the count of `s` when `d` is unsubscribed from. -/
def countAfterUnsubscribe (n : TrieNode) (d s : List UInt8) : Nat :=
  if s = d then count n d - 1
  else if unsubscribeDrops n d = some s then 0
  else count n s

/-- The end of the string: its count is lowered, and a node without subscriptions
and children is deleted. -/
theorem unsubscribeFound_spec {refcount : Nat} {pfx : List UInt8} {u : NodeLayout}
    {child : Nat → TrieNode} (hwf : (TrieNode.node refcount pfx u child).WF)
    (hr : 0 < refcount) :
    ∃ n, unsubscribeFound (.node refcount pfx u child) =
        .ok (n, some (if refcount = 1 then 1 else 0)) ∧ n.WF ∧
      n.isNull = (refcount == 1 && u.type == 0) ∧
      ∀ s, count n s = if s = pfx then refcount - 1 else count (.node refcount pfx u child) s := by
  have hlower : ∀ s, count (.node (refcount - 1) pfx u child) s =
      if s = pfx then refcount - 1 else count (.node refcount pfx u child) s := by
    intro s
    by_cases hs : pfx <+: s
    · obtain ⟨t, rfl⟩ := hs
      rw [count_append, count_append]
      cases t <;> simp [below]
    · rw [count_off_path hs, count_off_path hs, if_neg]
      rintro rfl
      exact hs List.prefix_rfl
  have hsub : nodeHasSubscribers refcount = true := by
    simp only [nodeHasSubscribers, bne_iff_ne, ne_eq]
    omega
  obtain ⟨hp, hu, -, hch⟩ := hwf
  by_cases hone : refcount = 1
  · subst hone
    simp only [Nat.sub_self] at hlower
    by_cases htype : u.type = 0
    · refine ⟨.null, by simp [unsubscribeFound, nodeHasSubscribers, htype], trivial,
        by simp [htype, TrieNode.isNull], ?_⟩
      intro s
      rw [← hlower]
      cases u with
      | sparse children =>
          obtain rfl : children = [] := List.eq_nil_of_length_eq_zero htype
          by_cases hs : pfx <+: s
          · obtain ⟨t, rfl⟩ := hs
            rw [count_append]
            cases t <;> simp [below]
          · rw [count_off_path hs, count_null]
      | dense min max nbr => simp [NodeLayout.type, trieDenseType] at htype
    · obtain ⟨n, heq, hnn, hnwf, hcount⟩ :=
        @nodeCompact_spec 0 pfx u child ⟨hp, hu, fun h => absurd h htype, hch⟩
      refine ⟨n, ?_, hnwf, by simp [hnn, htype], fun s => by rw [hcount, hlower]⟩
      simp [unsubscribeFound, nodeHasSubscribers, htype, heq, bind, Except.bind, pure,
        Except.pure]
  · refine ⟨.node (refcount - 1) pfx u child, ?_, ⟨hp, hu, fun _ => by omega, hch⟩,
      by simp [TrieNode.isNull, hone], hlower⟩
    have hne : ¬ refcount - 1 = 0 := by omega
    simp only [unsubscribeFound, hsub, if_true, if_neg hne, if_neg hone]

/-- A string that is the prefix of the node ends there. -/
theorem nodeUnsubscribe_self (refcount : Nat) (pfx : List UInt8) (u : NodeLayout)
    (child : Nat → TrieNode) :
    nodeUnsubscribe (.node refcount pfx u child) pfx =
      unsubscribeFound (.node refcount pfx u child) := by
  cases pfx with
  | nil => rw [nodeUnsubscribe]
  | cons b pfx =>
      rw [nodeUnsubscribe]
      have := (nodeCheckPrefix_eq_length_iff (b :: pfx) (b :: pfx)).mpr List.prefix_rfl
      rw [if_neg (by simpa using this), List.drop_length]

/-- Step into a node below which the string goes on. -/
theorem nodeUnsubscribe_cons (refcount : Nat) (pfx rest : List UInt8) (u : NodeLayout)
    (child : Nat → TrieNode) (c : UInt8) :
    nodeUnsubscribe (.node refcount pfx u child) (pfx ++ c :: rest) =
      match nodeNext u c with
      | none => .ok (.node refcount pfx u child, some 0)
      | some i => do
          let r ← nodeUnsubscribe (child i) rest
          let self := TrieNode.node refcount pfx u (setChild child i r.1)
          if r.2 = some 0 then return (self, some 0)
          else if r.1.isNull then do
            let self ← unsubscribePrune refcount pfx u (setChild child i r.1) c
            return (self, some 1)
          else return (self, some 1) := by
  obtain ⟨b, data, hdata⟩ := List.exists_cons_of_ne_nil (List.append_ne_nil_of_right_ne_nil pfx
    (List.cons_ne_nil c rest))
  have hpos := (nodeCheckPrefix_eq_length_iff pfx (b :: data)).mpr
    (hdata ▸ List.prefix_append pfx (c :: rest))
  have hdrop : (b :: data).drop pfx.length = c :: rest := by
    rw [← hdata, List.drop_left]
  rw [hdata, nodeUnsubscribe, if_neg (fun h => h hpos)]
  generalize (b :: data).drop pfx.length = rest' at hdrop ⊢
  subst hdrop
  rfl

/-- The recursive call and what is done with its outcome. -/
theorem nodeUnsubscribe_below {refcount i : Nat} {pfx rest : List UInt8} {u : NodeLayout}
    {child : Nat → TrieNode} {c : UInt8} {ch : TrieNode} {rc : Option Nat}
    (hnext : nodeNext u c = some i) (hch : nodeUnsubscribe (child i) rest = .ok (ch, rc)) :
    nodeUnsubscribe (.node refcount pfx u child) (pfx ++ c :: rest) =
      if rc = some 0 then .ok (.node refcount pfx u (setChild child i ch), some 0)
      else if ch.isNull then
        (unsubscribePrune refcount pfx u (setChild child i ch) c).map fun self => (self, some 1)
      else .ok (.node refcount pfx u (setChild child i ch), some 1) := by
  rw [nodeUnsubscribe_cons]
  simp only [hnext, hch, bind, Except.bind, pure, Except.pure]
  split
  · rfl
  · split
    · cases unsubscribePrune refcount pfx u (setChild child i ch) c <;> rfl
    · rfl

/-- The counts after closing a gap, when the removed child stored one string. -/
theorem countAfter_prune {refcount i : Nat} {pfx rest : List UInt8} {u : NodeLayout}
    {child : Nat → TrieNode} {c : UInt8} (hkid : kid u child c = child i)
    (hother : ∀ t, t ≠ rest → count (child i) t = 0) (s : List UInt8) :
    (if pfx ++ [c] <+: s then 0
      else if s = pfx then (if u.isBarelyDense then 0 else refcount)
      else count (.node refcount pfx u child) s) =
    if s = pfx ++ c :: rest then 1 - 1
    else if (if (u.isBarelyDense && nodeHasSubscribers refcount) = true then some pfx else none) =
      some s then 0
    else count (.node refcount pfx u child) s := by
  by_cases hs : pfx ++ [c] <+: s
  · obtain ⟨x, rfl⟩ := hs
    have hassoc : pfx ++ [c] ++ x = pfx ++ c :: x := by simp
    rw [if_pos (List.prefix_append _ _), hassoc, count_append, below, hkid]
    by_cases hx : x = rest
    · simp [hx]
    · rw [hother x hx]
      simp
  · rw [if_neg hs]
    have hne : s ≠ pfx ++ c :: rest := by
      rintro rfl
      exact hs ⟨rest, by simp⟩
    rw [if_neg hne]
    by_cases hp : s = pfx
    · subst s
      rw [if_pos rfl, count_self]
      cases hdense : u.isBarelyDense
      · simp
      · by_cases hr : refcount = 0 <;> simp [nodeHasSubscribers, hr]
    · have : ¬ (if (u.isBarelyDense && nodeHasSubscribers refcount) = true then some pfx
          else none) = some s := by
        split
        · simpa using fun h => hp h.symm
        · simp
      rw [if_neg hp, if_neg this]

/-- A node that stores nothing but one string drops none. -/
theorem unsubscribeDrops_of_storesOnly (n : TrieNode) :
    ∀ d, storesOnly n d = true → unsubscribeDrops n d = none := by
  cases n with
  | null => simp [storesOnly]
  | node refcount pfx u child =>
      intro d h
      simp only [storesOnly] at h
      simp only [unsubscribeDrops]
      split at h
      · rename_i hpre
        rw [if_pos hpre]
        cases hd : d.drop pfx.length with
        | nil => rfl
        | cons c rest =>
            simp only [hd, Bool.and_eq_true, beq_iff_eq] at h
            obtain ⟨⟨hr, htype⟩, h⟩ := h
            cases hnext : nodeNext u c with
            | none => simp [hnext]
            | some i =>
                simp only [hnext] at h
                simp [hnext, h, hr, nodeHasSubscribers]
      · exact Bool.noConfusion h

/-- `grid_trie_unsubscribe` for a stored string: it returns 1 when the last
subscription of the string goes and 0 otherwise, the invariant is kept and the
counts are those of `countAfterUnsubscribe`. -/
theorem nodeUnsubscribe_spec (n : TrieNode) :
    ∀ d : List UInt8, n.WF → 0 < count n d →
      ∃ n', nodeUnsubscribe n d = .ok (n', some (if count n d = 1 then 1 else 0)) ∧
        n'.WF ∧ n'.isNull = storesOnly n d ∧
        ∀ s, count n' s = countAfterUnsubscribe n d s := by
  induction n with
  | null =>
      intro d _ hpos
      simp at hpos
  | node refcount pfx u child ih =>
      intro d hwf hpos
      have hpre : pfx <+: d := by
        by_contra h
        rw [count_off_path h] at hpos
        exact Nat.lt_irrefl 0 hpos
      obtain ⟨t, rfl⟩ := hpre
      cases t with
      | nil =>
          -- the string ends at this node
          rw [List.append_nil] at hpos ⊢
          rw [count_self] at hpos ⊢
          obtain ⟨n', heq, hn'wf, hnull, hcount⟩ := unsubscribeFound_spec hwf hpos
          refine ⟨n', by rw [nodeUnsubscribe_self, heq], hn'wf, ?_, ?_⟩
          · rw [hnull]
            simp [storesOnly]
          · intro s
            rw [hcount, countAfterUnsubscribe, count_self]
            simp [unsubscribeDrops]
      | cons c rest =>
          -- the string goes on below this node
          have hwf' := wf_node_iff.mp hwf
          cases hnext : nodeNext u c with
          | none =>
              rw [count_append] at hpos
              simp [below, kid, hnext] at hpos
          | some i =>
              have hkid : kid u child c = child i := by simp [kid, hnext]
              have hbelow : count (.node refcount pfx u child) (pfx ++ c :: rest) =
                  count (child i) rest := by
                rw [count_append, below, hkid]
              rw [hbelow] at hpos ⊢
              have hnn : (child i).isNull = false := by
                rw [isNull_eq_false_iff]
                intro h
                simp [h] at hpos
              obtain ⟨ch', heq, hch'wf, hnull, hcount⟩ := ih i rest (hkid ▸ hwf'.2.2.2 c) hpos
              have hcall := @nodeUnsubscribe_below refcount _ pfx _ _ _ _ _ _ hnext heq
              by_cases honly : storesOnly (child i) rest = true
              · -- nothing is left below `c`
                obtain rfl : ch' = .null := isNull_iff.mp (hnull.trans honly)
                have hone : count (child i) rest = 1 := by
                  have := hcount rest
                  simp only [count_null, countAfterUnsubscribe, if_true] at this
                  omega
                have hother : ∀ t, t ≠ rest → count (child i) t = 0 := by
                  intro t ht
                  have := hcount t
                  simpa [countAfterUnsubscribe, ht,
                    unsubscribeDrops_of_storesOnly _ _ honly] using this.symm
                obtain ⟨n', hprune, hn'wf, hn'null, hn'count⟩ :=
                  unsubscribePrune_spec hwf hnext hnn
                refine ⟨n', ?_, hn'wf, ?_, ?_⟩
                · rw [hcall]
                  simp [hone, TrieNode.isNull, hprune, Except.map]
                · rw [hn'null]
                  simp [storesOnly, hnext, honly]
                · intro s
                  have hdrops : unsubscribeDrops (.node refcount pfx u child)
                      (pfx ++ c :: rest) =
                        if u.isBarelyDense && nodeHasSubscribers refcount then some pfx
                        else none := by
                    simp [unsubscribeDrops, hnext, honly]
                  rw [hn'count, countAfterUnsubscribe, hdrops, hbelow, hone]
                  exact countAfter_prune hkid hother s
              · -- the child stays
                have hstay : ch'.isNull = false := by
                  rw [hnull]
                  simpa using honly
                refine ⟨.node refcount pfx u (setChild child i ch'), ?_, ?_, ?_, ?_⟩
                · rw [hcall]
                  by_cases hone : count (child i) rest = 1 <;> simp [hone, hstay]
                · refine wf_node_iff.mpr ⟨hwf'.1, wf_setChild hwf'.2.1 hnext hnn hstay,
                    hwf'.2.2.1, ?_⟩
                  intro c'
                  rw [kid_setChild hnext]
                  split
                  · exact hch'wf
                  · exact hwf'.2.2.2 c'
                · simp [storesOnly, hnext, honly, TrieNode.isNull]
                · intro s
                  have hdrops : unsubscribeDrops (.node refcount pfx u child)
                      (pfx ++ c :: rest) =
                        (unsubscribeDrops (child i) rest).map fun t => pfx ++ c :: t := by
                    simp [unsubscribeDrops, hnext, honly]
                  rw [countAfterUnsubscribe, hdrops, hbelow]
                  exact count_setChild hnext hcount s

end GridMq.PubSub
