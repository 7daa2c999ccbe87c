import GridMq.PubSub.TrieCount

set_option autoImplicit false

/-!
# What `grid_trie_match` answers

The walk returns 1 at the first node with subscriptions on the way down.  It
fetches the byte that selects the next child without looking at `size`: when the
data ends exactly at a node without subscriptions, it reads on past the end with
a `size` that has wrapped around (`endsInside`).  Everywhere else it answers
whether a stored string is a prefix of the data.
-/

namespace GridMq.PubSub

/-- The data ends exactly at a node that holds no subscription, none having been
met above it. -/
def endsInside : TrieNode → List UInt8 → Bool
  | .null, _ => false
  | .node refcount pfx u child, d =>
      if pfx <+: d then
        if nodeHasSubscribers refcount then false
        else
          match d.drop pfx.length with
          | [] => true
          | c :: rest =>
              match nodeNext u c with
              | none => false
              | some i => endsInside (child i) rest
      else false

/-- The bytes of `d` lie in memory from the pointer on. -/
def LiesAt (data : Nat → UInt8) (d : List UInt8) : Prop :=
  ∀ i, i < d.length → data i = bytesAt d i

theorem LiesAt.bytesAt (d : List UInt8) : LiesAt (bytesAt d) d := fun _ _ => rfl

/-- What lies behind the first bytes of a string is the rest of the string. -/
theorem LiesAt.append {data : Nat → UInt8} {p t : List UInt8} (h : LiesAt data (p ++ t)) :
    LiesAt (fun j => data (p.length + j)) t := by
  intro i hi
  have hread := h (p.length + i) (by rw [List.length_append]; omega)
  refine hread.trans ?_
  simp [PubSub.bytesAt, List.getElem?_append_right (Nat.le_add_right p.length i)]

/-- The prefix check reads no more than `size` bytes. -/
theorem nodeCheckPrefix_congr (pfx : List UInt8) :
    ∀ (data data' : Nat → UInt8) (size : Nat), (∀ i, i < size → data i = data' i) →
      nodeCheckPrefix pfx data size = nodeCheckPrefix pfx data' size := by
  induction pfx with
  | nil => intro data data' size _; rfl
  | cons b pfx ih =>
      intro data data' size h
      rw [nodeCheckPrefix, nodeCheckPrefix]
      by_cases hsize : size = 0
      · simp [hsize]
      · rw [h 0 (by omega), ih (fun i => data (i + 1)) (fun i => data' (i + 1)) (size - 1)
          fun i hi => h (i + 1) (by omega)]

/-- The walk on data that does not begin with the prefix stops. -/
theorem trieMatch_off_path {refcount : Nat} {pfx d : List UInt8} {u : NodeLayout}
    {child : Nat → TrieNode} {data : Nat → UInt8} (hd : LiesAt data d) (h : ¬ pfx <+: d) :
    trieMatch (.node refcount pfx u child) data d.length = 0 := by
  rw [trieMatch, if_pos]
  rw [nodeCheckPrefix_congr pfx data (bytesAt d) d.length hd]
  exact fun heq => h ((nodeCheckPrefix_eq_length_iff pfx d).mp heq)

/-- The walk at a node whose prefix the data begins with. -/
theorem trieMatch_append {refcount : Nat} {pfx t : List UInt8} {u : NodeLayout}
    {child : Nat → TrieNode} {data : Nat → UInt8} (hd : LiesAt data (pfx ++ t)) :
    trieMatch (.node refcount pfx u child) data (pfx ++ t).length =
      if nodeHasSubscribers refcount then 1
      else
        match nodeNext u (data pfx.length) with
        | none => 0
        | some i =>
            trieMatch (child i) (fun j => data (pfx.length + 1 + j))
              ((t.length + (sizeTSize - 1)) % sizeTSize) := by
  have hpos : nodeCheckPrefix pfx data (pfx ++ t).length = pfx.length := by
    rw [nodeCheckPrefix_congr pfx data (bytesAt (pfx ++ t)) _ hd]
    exact (nodeCheckPrefix_eq_length_iff _ _).mpr (List.prefix_append pfx t)
  rw [trieMatch, if_neg (fun h => h hpos)]
  split
  · rfl
  · cases nodeNext u (data pfx.length) with
    | none => rfl
    | some i => simp only [List.length_append, Nat.add_sub_cancel_left]

/-- A stored string that begins the data passes through the child selected by
the byte after the prefix. -/
theorem exists_prefix_cons_iff {pfx rest : List UInt8} {u : NodeLayout}
    {child : Nat → TrieNode} {c : UInt8} :
    (∃ s, 0 < count (.node 0 pfx u child) s ∧ s <+: pfx ++ c :: rest) ↔
      ∃ s, 0 < count (kid u child c) s ∧ s <+: rest := by
  constructor
  · rintro ⟨s, hpos, hs⟩
    by_cases hp : pfx <+: s
    · obtain ⟨t, rfl⟩ := hp
      rw [count_append] at hpos
      cases t with
      | nil => exact absurd hpos (Nat.lt_irrefl 0)
      | cons e t =>
          rw [List.prefix_append_right_inj, List.cons_prefix_cons] at hs
          obtain ⟨rfl, hs⟩ := hs
          exact ⟨t, hpos, hs⟩
    · rw [count_off_path hp] at hpos
      exact absurd hpos (Nat.lt_irrefl 0)
  · rintro ⟨t, hpos, ht⟩
    refine ⟨pfx ++ c :: t, by rwa [count_append], ?_⟩
    rw [List.prefix_append_right_inj, List.cons_prefix_cons]
    exact ⟨rfl, ht⟩

/-- `grid_trie_match` on data that does not end inside the trie: 1 is returned
exactly when a stored string is a prefix of the data. -/
theorem trieMatch_spec (n : TrieNode) :
    ∀ (d : List UInt8) (data : Nat → UInt8), d.length < sizeTSize → LiesAt data d →
      endsInside n d = false →
      (trieMatch n data d.length = 1 ↔ ∃ s, 0 < count n s ∧ s <+: d) := by
  induction n with
  | null =>
      intro d data _ _ _
      simp [trieMatch]
  | node refcount pfx u child ih =>
      intro d data hlen hd hend
      by_cases hpre : pfx <+: d
      · obtain ⟨t, rfl⟩ := hpre
        rw [trieMatch_append hd]
        by_cases hsub : nodeHasSubscribers refcount = true
        · -- a subscription ends here
          have hpos : 0 < refcount := by
            simp only [nodeHasSubscribers, bne_iff_ne, ne_eq] at hsub
            omega
          rw [if_pos hsub]
          exact ⟨fun _ => ⟨pfx, by rwa [count_self], List.prefix_append pfx t⟩, fun _ => rfl⟩
        · obtain rfl : refcount = 0 := by simpa [nodeHasSubscribers] using hsub
          simp only [endsInside, List.prefix_append, if_true, if_neg hsub, List.drop_left] at hend
          rw [if_neg hsub]
          cases t with
          | nil => exact Bool.noConfusion hend
          | cons c rest =>
              have hc : data pfx.length = c := by
                have := hd pfx.length (by simp)
                rw [this]
                simp [PubSub.bytesAt]
              rw [hc, exists_prefix_cons_iff]
              cases hnext : nodeNext u c with
              | none => simp [kid, hnext]
              | some i =>
                  have hkid : kid u child c = child i := by simp [kid, hnext]
                  simp only [hnext] at hend
                  have hrest : LiesAt (fun j => data (pfx.length + 1 + j)) rest := by
                    have hassoc : pfx ++ c :: rest = (pfx ++ [c]) ++ rest := by simp
                    rw [hassoc] at hd
                    simpa using hd.append
                  have hsize : ((c :: rest).length + (sizeTSize - 1)) % sizeTSize =
                      rest.length := by
                    simp only [List.length_append, List.length_cons, sizeTSize] at hlen ⊢
                    omega
                  simp only [hsize]
                  rw [hkid]
                  refine ih i rest _ ?_ hrest hend
                  simp only [List.length_append, List.length_cons] at hlen
                  omega
      · rw [trieMatch_off_path hd hpre]
        constructor
        · intro h
          exact absurd h (by decide)
        · rintro ⟨s, hpos, hs⟩
          by_cases hp : pfx <+: s
          · exact absurd (hp.trans hs) hpre
          · rw [count_off_path hp] at hpos
            exact absurd hpos (Nat.lt_irrefl 0)

end GridMq.PubSub
