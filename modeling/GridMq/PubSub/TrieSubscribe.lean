import GridMq.PubSub.TrieLayout

set_option autoImplicit false

/-!
# What `grid_trie_subscribe` does to the stored strings

On a well-formed trie the call returns, keeps the invariant and counts the
string once more.  One thing it also does is recorded by `subscribeDrops`: when
the new branch is the ninth child of a node, step 3 builds the dense node with
reference count 0, and the count of the string ending at the old node is gone.
-/

namespace GridMq.PubSub

/-- A sparse array that has no room for another child. -/
def NodeLayout.isFull : NodeLayout → Bool
  | .sparse children => !(children.length < trieSparseMax)
  | .dense _ _ _ => false

/-- The string whose count is lost by subscribing to `s`: the node it ends at
holds subscriptions and is turned into a dense one. -/
def subscribeDrops : TrieNode → List UInt8 → Option (List UInt8)
  | .null, _ => none
  | .node refcount pfx u child, s =>
      if pfx <+: s then
        match s.drop pfx.length with
        | [] => none
        | c :: rest =>
            match nodeNext u c with
            | none => if u.isFull && nodeHasSubscribers refcount then some pfx else none
            | some i => (subscribeDrops (child i) rest).map fun t => pfx ++ c :: t
      else none

/-! ## Compacting -/

/-- Compacting a well-formed node keeps the invariant and the stored strings.
The node may be childless only if it holds a subscription. -/
theorem nodeCompact_spec {refcount : Nat} {pfx : List UInt8} {u : NodeLayout}
    {child : Nat → TrieNode} (hwf : (TrieNode.node refcount pfx u child).WF) :
    ∃ n, nodeCompact refcount pfx u child = .ok n ∧ n.isNull = false ∧ n.WF ∧
      ∀ s, count n s = count (.node refcount pfx u child) s := by
  unfold nodeCompact
  split
  · exact ⟨_, rfl, rfl, hwf, fun _ => rfl⟩
  · rename_i hsub
    have hr : refcount = 0 := by simpa [nodeHasSubscribers] using hsub
    split
    · rename_i c
      obtain ⟨hp, hu, -, hch⟩ := hwf
      cases h0 : child 0 with
      | null =>
          have := hu.2.2 0 (by simp)
          rw [h0] at this
          exact Bool.noConfusion this
      | node r p u' child' =>
          have hkid : ∀ c', kid (.sparse [c]) child c' = if c' = c then child 0 else .null := by
            intro c'
            by_cases hc : c' = c
            · subst c'
              simpa using @kid_sparse_getElem _ child (List.nodup_singleton c) 0 (by simp)
            · rw [if_neg hc, kid_sparse_of_not_mem (by simpa using hc)]
          have hchwf := hch 0 (by simp [NodeLayout.slots])
          rw [h0] at hchwf
          by_cases hfit : pfx.length + p.length + 1 > triePrefixMax
          · exact ⟨.node refcount pfx (.sparse [c]) child, by simp [hfit], rfl,
              ⟨hp, hu, by simp [NodeLayout.type], hch⟩, fun _ => rfl⟩
          · refine ⟨.node r (pfx ++ c :: p) u' child', by simp [hfit], rfl,
              ⟨by simp; omega, hchwf.2⟩, ?_⟩
            intro s
            by_cases hs : pfx <+: s
            · obtain ⟨t, rfl⟩ := hs
              rw [count_append]
              cases t with
              | nil =>
                  rw [count_off_path]
                  · simp [below, hr]
                  · rintro ⟨x, hx⟩
                    have := congrArg List.length hx
                    simp at this
              | cons d t =>
                  rw [below, hkid]
                  by_cases hd : d = c
                  · subst d
                    rw [if_pos rfl, h0]
                    by_cases hpt : p <+: t
                    · obtain ⟨x, rfl⟩ := hpt
                      have : pfx ++ c :: (p ++ x) = (pfx ++ c :: p) ++ x := by simp
                      rw [this, count_append, count_append]
                    · rw [count_off_path hpt, count_off_path]
                      rw [List.prefix_append_right_inj, List.cons_prefix_cons]
                      exact fun h => hpt h.2
                  · rw [if_neg hd, count_null, count_off_path]
                    rw [List.prefix_append_right_inj, List.cons_prefix_cons]
                    exact fun h => hd h.1.symm
            · rw [count_off_path hs, count_off_path]
              exact fun h => hs ((List.prefix_append pfx (c :: p)).trans h)
    · exact ⟨_, rfl, rfl, hwf, fun _ => rfl⟩

/-! ## Steps 5 and 4 -/

/-- The chain built by step 4 stores the rest of the subscription and nothing
else. -/
theorem step4From_spec (data : List UInt8) :
    ∀ pfx : List UInt8, pfx.length ≤ triePrefixMax →
      ∃ n, step4From pfx data = (n, 1) ∧ n.isNull = false ∧ n.WF ∧
        ∀ s, count n s = if s = pfx ++ data then 1 else 0 := by
  induction data with
  | nil =>
      intro pfx hp
      refine ⟨.node 1 pfx (.sparse []) fun _ => .null, by simp [step4From, step5, uint32Size],
        rfl, ?_, ?_⟩
      · exact ⟨hp, ⟨List.nodup_nil, Nat.zero_le _, by simp⟩, by simp, by simp [NodeLayout.slots]⟩
      · intro s
        by_cases hs : pfx <+: s
        · obtain ⟨t, rfl⟩ := hs
          rw [count_append]
          cases t <;> simp [below]
        · rw [count_off_path hs, if_neg]
          rintro rfl
          exact hs (List.prefix_append pfx [])
  | cons c rest ih =>
      intro pfx hp
      rw [step4From]
      split
      · rename_i hlt
        obtain ⟨n, heq, hnn, hwf, hcount⟩ := ih (pfx ++ [c]) (by simp; omega)
        exact ⟨n, heq, hnn, hwf, by simpa using hcount⟩
      · obtain ⟨n, heq, hnn, hwf, hcount⟩ := ih [] (Nat.zero_le _)
        have hkid := @kid_sparse_append _ (fun _ => .null) c List.nodup_nil (by simp) n
        simp only [List.nil_append, List.length_nil, kid_nil] at hkid
        refine ⟨_, by rw [heq], rfl, ?_, ?_⟩
        · refine wf_node_iff.mpr ⟨hp, ?_, by simp [NodeLayout.type], ?_⟩
          · refine ⟨List.nodup_singleton c, by simp [trieSparseMax], ?_⟩
            intro i hi
            simp only [List.length_singleton, Nat.lt_one_iff] at hi
            rw [hi, setChild_same]
            exact hnn
          · intro c'
            rw [hkid]
            split
            · exact hwf
            · trivial
        · intro s
          by_cases hs : pfx <+: s
          · obtain ⟨t, rfl⟩ := hs
            rw [count_append]
            cases t with
            | nil => simp [below]
            | cons d t =>
                rw [below, hkid]
                by_cases hd : d = c
                · simp [hd, hcount]
                · simp [hd]
          · rw [count_off_path hs, if_neg]
            rintro rfl
            exact hs (List.prefix_append pfx (c :: rest))

/-! ## Step 3 -/

/-- What a node stores once `c` leads to the new chain for `rest`. -/
theorem count_branch {refcount refcount' : Nat} {pfx rest : List UInt8} {u u' : NodeLayout}
    {child child' : Nat → TrieNode} {c : UInt8} {ch : TrieNode}
    (hold : (kid u child c).isNull = true)
    (hkid : ∀ c', kid u' child' c' = if c' = c then ch else kid u child c')
    (hch : ∀ t, count ch t = if t = rest then 1 else 0) (s : List UInt8) :
    count (.node refcount' pfx u' child') s =
      if s = pfx ++ c :: rest then 1
      else if s = pfx then refcount' else count (.node refcount pfx u child) s := by
  by_cases hs : pfx <+: s
  · obtain ⟨t, rfl⟩ := hs
    rw [count_append, count_append]
    cases t with
    | nil => simp [below]
    | cons d t =>
        rw [below, below, hkid]
        by_cases hd : d = c
        · subst d
          rw [isNull_iff.mp hold]
          simp [hch]
        · simp [hd]
  · have h1 : s ≠ pfx ++ c :: rest := by
      rintro rfl
      exact hs (List.prefix_append pfx _)
    have h2 : s ≠ pfx := by
      rintro rfl
      exact hs List.prefix_rfl
    rw [if_neg h1, if_neg h2, count_off_path hs, count_off_path hs]

/-- Step 3 adds the new branch; only the conversion of a full sparse array also
drops the count of the node itself. -/
theorem step3_spec {refcount : Nat} {pfx rest : List UInt8} {u : NodeLayout}
    {child : Nat → TrieNode} {c : UInt8} (hp : pfx.length ≤ triePrefixMax)
    (hu : u.WF child) (hch : ∀ c, (kid u child c).WF)
    (hc : (kid u child c).isNull = true) :
    ∃ n, step3 refcount pfx u child c rest = .ok (n, 1) ∧ n.isNull = false ∧ n.WF ∧
      ∀ s, count n s =
        if s = pfx ++ c :: rest then 1
        else if s = pfx then (if u.isFull then 0 else refcount)
        else count (.node refcount pfx u child) s := by
  obtain ⟨ch, heq, hnn, hwf, hcount⟩ := step4From_spec rest [] (Nat.zero_le _)
  simp only [List.nil_append] at hcount
  have hkidwf : ∀ {u' : NodeLayout} {child' : Nat → TrieNode},
      (∀ c', kid u' child' c' = if c' = c then ch else kid u child c') →
      ∀ c', (kid u' child' c').WF := by
    intro u' child' hkid c'
    rw [hkid]
    split
    · exact hwf
    · exact hch c'
  cases u with
  | sparse children =>
      have hmem := (kid_sparse_isNull_iff hu).mp hc
      by_cases hlen : children.length < trieSparseMax
      · have hkid := @kid_sparse_append _ child _ hu.1 hmem ch
        refine ⟨.node refcount pfx (.sparse (children ++ [c]))
          (setChild child children.length ch), by simp [step3, step4, heq, hlen], rfl, ?_, ?_⟩
        · exact wf_node_iff.mpr ⟨hp, wf_sparse_append hu hmem hlen hnn,
            by simp [NodeLayout.type], hkidwf hkid⟩
        · intro s
          rw [@count_branch refcount _ _ _ _ _ _ _ _ _ hc hkid hcount]
          simp [NodeLayout.isFull, hlen]
      · have hkid := @kid_denseFill _ child c hu.1 ch (children.length + 1)
        have hslot := denseFill_slot_isNull hu hc
        refine ⟨.node 0 pfx (.dense (denseRange children c).1 (denseRange children c).2
            (children.length + 1))
          (setChild (denseFill (denseRange children c).1 children child)
            (c.toNat - (denseRange children c).1) ch),
          by simp [step3, step4, heq, hlen, hslot], rfl, ?_, ?_⟩
        · exact wf_node_iff.mpr ⟨hp, wf_denseFill hu hmem hlen hnn,
            by simp [NodeLayout.type, trieDenseType], hkidwf hkid⟩
        · intro s
          rw [@count_branch refcount _ _ _ _ _ _ _ _ _ hc hkid hcount]
          simp [NodeLayout.isFull, hlen]
  | dense min max nbr =>
      have hkid := @kid_denseWiden _ _ nbr child c hu.1 ch (nbr + 1)
      have hlayout := wf_denseWiden hu hc hnn
      have hslot := denseWiden_slot_isNull hu hc
      simp only at hkid hlayout hslot
      refine ⟨.node refcount pfx (.dense _ _ (nbr + 1)) (setChild _ _ ch), ?_, rfl,
        wf_node_iff.mpr ⟨hp, hlayout, by simp [NodeLayout.type, trieDenseType],
          hkidwf hkid⟩, ?_⟩
      · simp only [step3, step4, heq, hslot, if_true]
      · intro s
        rw [@count_branch refcount _ _ _ _ _ _ _ _ _ hc hkid hcount]
        simp [NodeLayout.isFull]

/-! ## Step 2 -/

/-- A node with one child stores what the child stores below that byte. -/
theorem count_single {q : List UInt8} {b : UInt8} {ch : TrieNode} (t : List UInt8) :
    count (.node 0 q (.sparse [b]) (setChild (fun _ => .null) 0 ch)) (q ++ t) =
      match t with
      | [] => 0
      | d :: rest => if d = b then count ch rest else 0 := by
  have hkid := @kid_sparse_append _ (fun _ => .null) b List.nodup_nil (by simp) ch
  simp only [List.nil_append, List.length_nil, kid_nil] at hkid
  rw [count_append]
  cases t with
  | nil => rfl
  | cons d rest =>
      rw [below, hkid]
      by_cases hd : d = b <;> simp [hd]

/-- Splitting a prefix into two nodes does not change what is stored. -/
theorem count_split {refcount : Nat} {q tail : List UInt8} {b : UInt8} {u : NodeLayout}
    {child : Nat → TrieNode} {ch : TrieNode}
    (hch : ∀ s, count ch s = count (.node refcount tail u child) s) (s : List UInt8) :
    count (.node 0 q (.sparse [b]) (setChild (fun _ => .null) 0 ch)) s =
      count (.node refcount (q ++ b :: tail) u child) s := by
  by_cases hs : q <+: s
  · obtain ⟨t, rfl⟩ := hs
    rw [count_single]
    cases t with
    | nil =>
        rw [count_off_path]
        rintro ⟨x, hx⟩
        have := congrArg List.length hx
        simp at this
    | cons d rest =>
        by_cases hd : d = b
        · subst d
          simp only [if_true]
          rw [hch]
          by_cases hp : tail <+: rest
          · obtain ⟨x, rfl⟩ := hp
            have hx : q ++ b :: (tail ++ x) = (q ++ b :: tail) ++ x := by simp
            rw [hx, count_append, count_append]
          · rw [count_off_path hp, count_off_path]
            rw [List.prefix_append_right_inj, List.cons_prefix_cons]
            exact fun h => hp h.2
        · simp only [hd, if_false]
          rw [count_off_path]
          rw [List.prefix_append_right_inj, List.cons_prefix_cons]
          exact fun h => hd h.1.symm
  · rw [count_off_path hs, count_off_path]
    exact fun h => hs ((List.prefix_append q (b :: tail)).trans h)

theorem wf_single {q : List UInt8} {b : UInt8} {ch : TrieNode} {refcount : Nat}
    (hq : q.length ≤ triePrefixMax) (hnn : ch.isNull = false) (hwf : ch.WF) :
    (TrieNode.node refcount q (.sparse [b]) (setChild (fun _ => .null) 0 ch)).WF := by
  have hslot : ∀ i, i < 1 → setChild (fun _ => TrieNode.null) 0 ch i = ch := by
    intro i hi
    rw [Nat.lt_one_iff.mp hi, setChild_same]
  refine ⟨hq, ⟨List.nodup_singleton b, by simp [trieSparseMax], ?_⟩,
    by simp [NodeLayout.type], ?_⟩
  · intro i hi
    rw [hslot i (by simpa using hi)]
    exact hnn
  · intro i hi
    rw [hslot i (by simpa [NodeLayout.slots] using hi)]
    exact hwf

/-- Step 2 stores the rest of the subscription beside the split node. -/
theorem step2_spec {refcount : Nat} {q tail t : List UInt8} {b : UInt8} {u : NodeLayout}
    {child : Nat → TrieNode}
    (hwf : (TrieNode.node refcount (q ++ b :: tail) u child).WF) (ht : t.head? ≠ some b) :
    ∃ n, step2 refcount (q ++ b :: tail) u child q.length t = .ok (n, 1) ∧
      n.isNull = false ∧ n.WF ∧
      ∀ s, count n s =
        if s = q ++ t then 1 else count (.node refcount (q ++ b :: tail) u child) s := by
  obtain ⟨hp, hrest⟩ := hwf
  simp only [List.length_append, List.length_cons] at hp
  obtain ⟨ch, heq, hnn, hchwf, hcount⟩ :=
    @nodeCompact_spec refcount tail u child ⟨by omega, hrest⟩
  have hsplit := count_split (q := q) (b := b) hcount
  have hsingle := @wf_single q b _ 0 (by omega) hnn hchwf
  cases t with
  | nil =>
      refine ⟨.node 1 q (.sparse [b]) (setChild (fun _ => .null) 0 ch), ?_, rfl,
        wf_single (by omega) hnn hchwf, ?_⟩
      · simp [step2, heq, step5, uint32Size]
      · intro s
        rw [← hsplit]
        by_cases hs : q <+: s
        · obtain ⟨x, rfl⟩ := hs
          rw [count_append, count_append]
          cases x <;> simp [below]
        · rw [count_off_path hs, count_off_path hs, if_neg]
          rintro rfl
          exact hs (List.prefix_append q [])
  | cons c rest =>
      have hcb : c ≠ b := by simpa using ht
      have hnull : (kid (.sparse [b]) (setChild (fun _ => .null) 0 ch) c).isNull = true := by
        rw [kid_sparse_of_not_mem (by simpa using hcb)]
        rfl
      obtain ⟨n, hstep, hn, hnwf, hncount⟩ :=
        @step3_spec 0 _ rest _ _ _ hsingle.1 hsingle.2.1
          (wf_node_iff.mp hsingle).2.2.2 hnull
      refine ⟨n, ?_, hn, hnwf, ?_⟩
      · simp [step2, heq, bind, Except.bind, hstep]
      · intro s
        rw [hncount, hsplit]
        split
        · rfl
        · split
          · rename_i hsq
            rw [hsq, count_off_path]
            · simp
            · rintro ⟨x, hx⟩
              have := congrArg List.length hx
              simp at this
          · rfl

/-! ## The whole call -/

/-- A change below `c` changes the node in the same way: a new count for one
string, and one string dropped. -/
theorem count_setChild {refcount cnt i : Nat} {pfx rest : List UInt8} {u : NodeLayout}
    {child : Nat → TrieNode} {c : UInt8} {ch : TrieNode} {dropped : Option (List UInt8)}
    (hnext : nodeNext u c = some i)
    (hch : ∀ t, count ch t =
      if t = rest then cnt else if dropped = some t then 0 else count (child i) t)
    (s : List UInt8) :
    count (.node refcount pfx u (setChild child i ch)) s =
      if s = pfx ++ c :: rest then cnt
      else if (dropped.map fun t => pfx ++ c :: t) = some s then 0
      else count (.node refcount pfx u child) s := by
  have hset := @kid_setChild _ child _ _ hnext ch
  by_cases hs : pfx <+: s
  · obtain ⟨x, rfl⟩ := hs
    rw [count_append, count_append]
    cases x with
    | nil =>
        have hne : ¬ dropped.map (fun t => pfx ++ c :: t) = some (pfx ++ []) := by simp
        rw [if_neg (by simp), if_neg hne]
        rfl
    | cons e x =>
        rw [below, below, hset]
        by_cases hec : e = c
        · subst e
          have hkid : kid u child c = child i := by simp [kid, hnext]
          rw [if_pos rfl, hch, hkid]
          simp
        · simp [hec, Ne.symm hec]
  · rw [count_off_path hs, count_off_path hs, if_neg]
    · split <;> rfl
    · rintro rfl
      exact hs (List.prefix_append pfx _)

/-- What becomes of the count of `s` when `d` is subscribed to. -/
def countAfterSubscribe (n : TrieNode) (d s : List UInt8) : Nat :=
  if s = d then count n d + 1
  else if subscribeDrops n d = some s then 0
  else count n s

/-- Without a slot for its next byte, a string is stored by step 3. -/
theorem countAfterSubscribe_of_null {refcount : Nat} {pfx rest : List UInt8} {u : NodeLayout}
    {child : Nat → TrieNode} {c : UInt8} (hwf : (TrieNode.node refcount pfx u child).WF)
    (hc : (kid u child c).isNull = true) (s : List UInt8) :
    countAfterSubscribe (.node refcount pfx u child) (pfx ++ c :: rest) s =
      if s = pfx ++ c :: rest then 1
      else if s = pfx then (if u.isFull then 0 else refcount)
      else count (.node refcount pfx u child) s := by
  have hzero : count (.node refcount pfx u child) (pfx ++ c :: rest) = 0 := by
    rw [count_append, below, isNull_iff.mp hc, count_null]
  have hdrops : subscribeDrops (.node refcount pfx u child) (pfx ++ c :: rest) =
      if u.isFull && nodeHasSubscribers refcount then some pfx else none := by
    simp only [subscribeDrops, List.prefix_append, if_true, List.drop_left]
    cases hnext : nodeNext u c with
    | none => rfl
    | some i =>
        -- the slot exists and is empty: the array is dense
        have hnull : child i = .null := by simpa [kid, hnext, isNull_iff] using hc
        have hdense : u.isFull = false := by
          cases u with
          | sparse children =>
              have := hwf.2.1.2.2 i (nodeNext_lt_slots hnext)
              rw [hnull] at this
              exact Bool.noConfusion this
          | dense min max nbr => rfl
        simp [hnull, subscribeDrops, hdense]
  unfold countAfterSubscribe
  rw [hzero, hdrops]
  split
  · rfl
  · by_cases hs : s = pfx
    · subst s
      rw [count_self]
      cases hfull : u.isFull
      · simp
      · by_cases hr : refcount = 0 <;> simp [nodeHasSubscribers, hr]
    · have : ¬ (if (u.isFull && nodeHasSubscribers refcount) = true then some pfx else none)
          = some s := by
        split
        · simpa using fun h => hs h.symm
        · simp
      rw [if_neg this, if_neg hs]

/-- `grid_trie_subscribe` on a well-formed trie: it returns, the invariant is
kept, the counts are those of `countAfterSubscribe` and 1 is returned for a
string that was not stored. -/
theorem trieSubscribe_spec (n : TrieNode) :
    ∀ d : List UInt8, n.WF → count n d + 1 < uint32Size →
      ∃ n', trieSubscribe n d = .ok (n', if count n d = 0 then 1 else 0) ∧
        n'.isNull = false ∧ n'.WF ∧ ∀ s, count n' s = countAfterSubscribe n d s := by
  induction n with
  | null =>
      intro d _ _
      obtain ⟨n', heq, hnn, hwf, hcount⟩ := step4From_spec d [] (Nat.zero_le _)
      refine ⟨n', by simp [trieSubscribe, step4, heq], hnn, hwf, ?_⟩
      intro s
      rw [hcount]
      simp [countAfterSubscribe, subscribeDrops]
  | node refcount pfx u child ih =>
      intro d hwf hlt
      have hwf' := wf_node_iff.mp hwf
      rcases nodeCheckPrefix_split pfx d with ⟨hpos, hpre⟩ | ⟨q, b, tail, t, hp, hd, ht, hpos⟩
      · obtain ⟨t, rfl⟩ := hpre
        rw [trieSubscribe]
        simp only [hpos, Nat.lt_irrefl, if_false, List.drop_left]
        cases t with
        | nil =>
            -- the string ends at this node: step 5
            have hself : count (.node refcount pfx u child) (pfx ++ []) = refcount :=
              count_append refcount pfx [] u child
            rw [hself] at hlt ⊢
            have hmod : (refcount + 1) % uint32Size = refcount + 1 := Nat.mod_eq_of_lt hlt
            refine ⟨.node (refcount + 1) pfx u child, ?_, rfl, ?_, ?_⟩
            · simp [step5, hmod]
            · exact ⟨hwf.1, hwf.2.1, fun _ => Nat.succ_pos _, hwf.2.2.2⟩
            · intro s
              have hdrops : subscribeDrops (.node refcount pfx u child) (pfx ++ []) = none := by
                simp [subscribeDrops]
              unfold countAfterSubscribe
              rw [hdrops, hself]
              by_cases hs : pfx <+: s
              · obtain ⟨x, rfl⟩ := hs
                rw [count_append, count_append]
                cases x <;> simp [below]
              · rw [count_off_path hs, count_off_path hs, if_neg]
                · simp
                · rintro rfl
                  exact hs (List.prefix_append pfx [])
        | cons c rest =>
            -- the string goes on below this node
            by_cases hnull : (kid u child c).isNull = true
            · have hzero : count (.node refcount pfx u child) (pfx ++ c :: rest) = 0 := by
                rw [count_append, below, isNull_iff.mp hnull, count_null]
              obtain ⟨n', hstep, hnn, hn'wf, hcount⟩ :=
                @step3_spec refcount _ rest _ _ _ hwf'.1 hwf'.2.1 hwf'.2.2.2 hnull
              refine ⟨n', ?_, hnn, hn'wf, ?_⟩
              · rw [hzero]
                cases hnext : nodeNext u c with
                | none => simpa [hnext] using hstep
                | some i =>
                    have : (child i).isNull = true := by simpa [kid, hnext] using hnull
                    simpa [hnext, this] using hstep
              · intro s
                rw [hcount, countAfterSubscribe_of_null hwf hnull]
            · cases hnext : nodeNext u c with
              | none => simp [kid, hnext, TrieNode.isNull] at hnull
              | some i =>
                  have hkid : kid u child c = child i := by simp [kid, hnext]
                  have hnn : (child i).isNull = false := by simpa [hkid] using hnull
                  have hbelow : count (.node refcount pfx u child) (pfx ++ c :: rest) =
                      count (child i) rest := by
                    rw [count_append, below, hkid]
                  rw [hbelow] at hlt ⊢
                  obtain ⟨ch', heq, hch', hch'wf, hcount⟩ :=
                    ih i rest (hkid ▸ hwf'.2.2.2 c) hlt
                  have hset := @kid_setChild _ child _ _ hnext ch'
                  refine ⟨.node refcount pfx u (setChild child i ch'), ?_, rfl, ?_, ?_⟩
                  · simp [hnext, hnn, heq]
                  · refine wf_node_iff.mpr ⟨hwf'.1, wf_setChild hwf'.2.1 hnext hnn hch',
                      hwf'.2.2.1, ?_⟩
                    intro c'
                    rw [hset]
                    split
                    · exact hch'wf
                    · exact hwf'.2.2.2 c'
                  · intro s
                    have hdrops : subscribeDrops (.node refcount pfx u child)
                        (pfx ++ c :: rest) =
                          (subscribeDrops (child i) rest).map fun t => pfx ++ c :: t := by
                      simp [subscribeDrops, hnext]
                    rw [countAfterSubscribe, hdrops, hbelow]
                    exact count_setChild hnext hcount s
      · -- only part of the prefix matches: step 2
        subst hp hd
        have hzero : count (.node refcount (q ++ b :: tail) u child) (q ++ t) = 0 := by
          rw [count_off_path]
          rw [← nodeCheckPrefix_eq_length_iff, hpos]
          simp
        obtain ⟨n', hstep, hnn, hn'wf, hcount⟩ := step2_spec hwf ht
        refine ⟨n', ?_, hnn, hn'wf, ?_⟩
        · rw [trieSubscribe, hzero]
          simp only [hpos, List.drop_left]
          rw [if_pos (by simp)]
          simpa using hstep
        · intro s
          have hdrops : subscribeDrops (.node refcount (q ++ b :: tail) u child) (q ++ t) =
              none := by
            have : ¬ q ++ b :: tail <+: q ++ t := by
              rw [← nodeCheckPrefix_eq_length_iff, hpos]
              simp
            simp [subscribeDrops, this]
          rw [hcount, countAfterSubscribe, hdrops, hzero]
          simp

end GridMq.PubSub
