import GridMq.PubSub.TrieExact

set_option autoImplicit false

/-!
# The bytes `grid_trie_match` examines

`trieMatchWalk` is the loop of `trieMatch` with a record of what it looks at: the
offsets of the bytes it examines and whether the unsigned counter `size` is
decremented when it is too small.  The walk stays inside the message unless the
message ends exactly at a node without subscriptions (`endsInside`).
-/

namespace GridMq.PubSub

/-- The offsets of the bytes that `grid_node_check_prefix` examines. -/
def nodeCheckPrefixReads : List UInt8 → (Nat → UInt8) → Nat → List Nat
  | [], _, _ => []
  | b :: pfx, data, size =>
      if size = 0 then []
      else if b ≠ data 0 then [0]
      else 0 :: (nodeCheckPrefixReads pfx (fun i => data (i + 1)) (size - 1)).map (· + 1)

/-- A walk of `grid_trie_match`: its answer, the offsets of the bytes it examines
and whether `size` underflows on the way. -/
structure MatchWalk where
  rc : Nat
  examined : List Nat
  underflows : Bool
  deriving DecidableEq, Repr

/-- `grid_trie_match` from `node`, with what it examines.  The byte after the prefix
is fetched before the node is asked for a child, and `size` is decremented even
when there is none. -/
def trieMatchWalk : TrieNode → (Nat → UInt8) → Nat → MatchWalk
  | .null, _, _ => ⟨0, [], false⟩
  | .node refcount pfx u child, data, size =>
      let checked := nodeCheckPrefixReads pfx data size
      if nodeCheckPrefix pfx data size ≠ pfx.length then ⟨0, checked, false⟩
      else if nodeHasSubscribers refcount then ⟨1, checked, decide (size < pfx.length)⟩
      else
        let next : MatchWalk :=
          match nodeNext u (data pfx.length) with
          | none => ⟨0, [], false⟩
          | some i =>
              trieMatchWalk (child i) (fun j => data (pfx.length + 1 + j))
                ((size - pfx.length + (sizeTSize - 1)) % sizeTSize)
        ⟨next.rc, checked ++ pfx.length :: next.examined.map (pfx.length + 1 + ·),
          decide (size ≤ pfx.length) || next.underflows⟩

/-- The record does not change the walk. -/
theorem trieMatchWalk_rc (n : TrieNode) :
    ∀ (data : Nat → UInt8) (size : Nat), (trieMatchWalk n data size).rc = trieMatch n data size := by
  induction n with
  | null =>
      intro data size
      rfl
  | node refcount pfx u child ih =>
      intro data size
      simp only [trieMatchWalk, trieMatch]
      by_cases hcheck : nodeCheckPrefix pfx data size = pfx.length
      · by_cases hsub : nodeHasSubscribers refcount = true
        · simp only [hcheck, hsub, ne_eq, not_true, if_false, if_true]
        · simp only [hcheck, hsub, ne_eq, not_true, if_false]
          cases nodeNext u (data pfx.length) with
          | none => rfl
          | some i => exact ih i _ _
      · simp only [hcheck, ne_eq, not_false_eq_true, if_true]

theorem trieMatch_le_one (n : TrieNode) :
    ∀ (data : Nat → UInt8) (size : Nat), trieMatch n data size ≤ 1 := by
  induction n with
  | null =>
      intro data size
      exact Nat.zero_le 1
  | node refcount pfx u child ih =>
      intro data size
      rw [trieMatch]
      split
      · exact Nat.zero_le 1
      · split
        · exact Nat.le_refl 1
        · cases nodeNext u (data pfx.length) with
          | none => exact Nat.zero_le 1
          | some i => exact ih i _ _

/-- The prefix check examines no byte at or past `size`. -/
theorem nodeCheckPrefixReads_lt (pfx : List UInt8) :
    ∀ (data : Nat → UInt8) (size : Nat), ∀ i ∈ nodeCheckPrefixReads pfx data size, i < size := by
  induction pfx with
  | nil =>
      intro data size i hi
      simp [nodeCheckPrefixReads] at hi
  | cons b pfx ih =>
      intro data size i hi
      rw [nodeCheckPrefixReads] at hi
      split at hi
      · simp at hi
      · rename_i hsize
        split at hi
        · obtain rfl : i = 0 := by simpa using hi
          omega
        · rcases List.mem_cons.mp hi with rfl | hi
          · omega
          · obtain ⟨j, hj, rfl⟩ := List.mem_map.mp hi
            have := ih _ _ j hj
            omega

/-- A check that succeeds has found the whole prefix in the data. -/
theorem prefix_of_nodeCheckPrefix {pfx d : List UInt8} {data : Nat → UInt8}
    (hd : LiesAt data d) :
    nodeCheckPrefix pfx data d.length = pfx.length ↔ pfx <+: d := by
  rw [nodeCheckPrefix_congr pfx data (bytesAt d) d.length hd]
  exact nodeCheckPrefix_eq_length_iff pfx d

/-- One turn of the loop on data that goes on behind the prefix. -/
theorem trieMatchWalk_cons {pfx rest : List UInt8} {u : NodeLayout} {child : Nat → TrieNode}
    {c : UInt8} {data : Nat → UInt8} (hlen : (pfx ++ c :: rest).length < sizeTSize)
    (hd : LiesAt data (pfx ++ c :: rest)) :
    trieMatchWalk (.node 0 pfx u child) data (pfx ++ c :: rest).length =
      let next := trieMatchWalk (kid u child c) (fun j => data (pfx.length + 1 + j)) rest.length
      ⟨next.rc, nodeCheckPrefixReads pfx data (pfx ++ c :: rest).length ++
        pfx.length :: next.examined.map (pfx.length + 1 + ·), next.underflows⟩ := by
  have hcheck := (prefix_of_nodeCheckPrefix hd).mpr (List.prefix_append pfx (c :: rest))
  have hc : data pfx.length = c := by
    rw [hd pfx.length (by simp)]
    simp [PubSub.bytesAt]
  have hsize : ((pfx ++ c :: rest).length - pfx.length + (sizeTSize - 1)) % sizeTSize =
      rest.length := by
    simp only [List.length_append, List.length_cons, sizeTSize] at hlen ⊢
    omega
  have hlong : ¬ (pfx ++ c :: rest).length ≤ pfx.length := by
    simp only [List.length_append, List.length_cons]
    omega
  rw [trieMatchWalk, if_neg (fun h => h hcheck), if_neg (by simp [nodeHasSubscribers]), hc, hsize]
  simp only [hlong, decide_false, Bool.false_or, kid]
  cases nodeNext u c with
  | none => rfl
  | some i => rfl

/-- What lies behind the byte that selects a child. -/
theorem LiesAt.behind {pfx rest : List UInt8} {c : UInt8} {data : Nat → UInt8}
    (hd : LiesAt data (pfx ++ c :: rest)) :
    LiesAt (fun j => data (pfx.length + 1 + j)) rest := by
  have hassoc : pfx ++ c :: rest = (pfx ++ [c]) ++ rest := by simp
  rw [hassoc] at hd
  simpa using hd.append

/-- Data that does not end inside the trie bounds the walk. -/
theorem trieMatchWalk_inside (n : TrieNode) :
    ∀ (d : List UInt8) (data : Nat → UInt8), d.length < sizeTSize → LiesAt data d →
      endsInside n d = false →
      (∀ i ∈ (trieMatchWalk n data d.length).examined, i < d.length) ∧
        (trieMatchWalk n data d.length).underflows = false := by
  induction n with
  | null =>
      intro d data _ _ _
      exact ⟨by simp [trieMatchWalk], rfl⟩
  | node refcount pfx u child ih =>
      intro d data hlen hd hend
      have hchecked := nodeCheckPrefixReads_lt pfx data d.length
      by_cases hpre : pfx <+: d
      · have hcheck := (prefix_of_nodeCheckPrefix hd).mpr hpre
        by_cases hsub : nodeHasSubscribers refcount = true
        · rw [trieMatchWalk, if_neg (fun h => h hcheck), if_pos hsub]
          refine ⟨hchecked, ?_⟩
          simpa using hpre.length_le
        · obtain rfl : refcount = 0 := by simpa [nodeHasSubscribers] using hsub
          obtain ⟨t, rfl⟩ := hpre
          simp only [endsInside, List.prefix_append, if_true, if_neg hsub, List.drop_left] at hend
          cases t with
          | nil => exact Bool.noConfusion hend
          | cons c rest =>
              rw [trieMatchWalk_cons hlen hd]
              have hnext : (∀ i ∈ (trieMatchWalk (kid u child c)
                  (fun j => data (pfx.length + 1 + j)) rest.length).examined, i < rest.length) ∧
                  (trieMatchWalk (kid u child c)
                    (fun j => data (pfx.length + 1 + j)) rest.length).underflows = false := by
                have hrest : rest.length < sizeTSize := by
                  simp only [List.length_append, List.length_cons] at hlen
                  omega
                rw [kid]
                cases hslot : nodeNext u c with
                | none => exact ⟨by simp [trieMatchWalk], rfl⟩
                | some i =>
                    simp only [hslot] at hend
                    exact ih i rest _ hrest hd.behind hend
              refine ⟨?_, hnext.2⟩
              intro i hi
              simp only [List.mem_append, List.mem_cons, List.mem_map] at hi
              rcases hi with hi | rfl | ⟨j, hj, rfl⟩
              · exact hchecked i hi
              · simp
              · have := hnext.1 j hj
                simp only [List.length_append, List.length_cons]
                omega
      · rw [trieMatchWalk, if_pos (fun h => hpre ((prefix_of_nodeCheckPrefix hd).mp h))]
        exact ⟨hchecked, rfl⟩

/-- Data that ends inside the trie is read past its end. -/
theorem trieMatchWalk_past_end (n : TrieNode) :
    ∀ (d : List UInt8) (data : Nat → UInt8), d.length < sizeTSize → LiesAt data d →
      endsInside n d = true → d.length ∈ (trieMatchWalk n data d.length).examined := by
  induction n with
  | null =>
      intro d data _ _ hend
      exact Bool.noConfusion hend
  | node refcount pfx u child ih =>
      intro d data hlen hd hend
      by_cases hpre : pfx <+: d
      · have hcheck := (prefix_of_nodeCheckPrefix hd).mpr hpre
        obtain ⟨t, rfl⟩ := hpre
        by_cases hsub : nodeHasSubscribers refcount = true
        · simp [endsInside, hsub] at hend
        · obtain rfl : refcount = 0 := by simpa [nodeHasSubscribers] using hsub
          simp only [endsInside, List.prefix_append, if_true, if_neg hsub, List.drop_left] at hend
          cases t with
          | nil =>
              -- the byte behind the data is fetched here
              rw [trieMatchWalk, if_neg (fun h => h hcheck), if_neg hsub]
              simp
          | cons c rest =>
              have hrest : rest.length < sizeTSize := by
                simp only [List.length_append, List.length_cons] at hlen
                omega
              cases hslot : nodeNext u c with
              | none => simp [hslot] at hend
              | some i =>
                  simp only [hslot] at hend
                  have hnext := ih i rest _ hrest hd.behind hend
                  rw [trieMatchWalk_cons hlen hd, kid, hslot]
                  simp only [List.mem_append, List.mem_cons, List.mem_map]
                  right
                  right
                  refine ⟨rest.length, hnext, ?_⟩
                  simp only [List.length_append, List.length_cons]
                  omega
      · simp [endsInside, hpre] at hend

/-- The walk for the message `d`, which lies in memory at `data`: it examines no byte
at or past the end, `size` never underflows, the answer is the same whatever lies
behind the message, and it is 1 when a stored string is a prefix of the message. -/
def MatchesInside (n : TrieNode) (d : List UInt8) (data : Nat → UInt8) : Prop :=
  let walk := trieMatchWalk n data d.length
  (∀ i ∈ walk.examined, i < d.length) ∧ walk.underflows = false ∧
    (∀ data', LiesAt data' d → (trieMatchWalk n data' d.length).rc = walk.rc) ∧
    (walk.rc = 1 ↔ ∃ s, 0 < count n s ∧ s <+: d)

/-- A match stays inside the message exactly when the message does not end at a node
without subscriptions. -/
theorem matchesInside_iff (n : TrieNode) (d : List UInt8) (data : Nat → UInt8)
    (hlen : d.length < sizeTSize) (hd : LiesAt data d) :
    MatchesInside n d data ↔ endsInside n d = false := by
  constructor
  · rintro ⟨hread, -⟩
    by_contra hend
    rw [Bool.not_eq_false] at hend
    exact absurd (hread _ (trieMatchWalk_past_end n d data hlen hd hend)) (Nat.lt_irrefl _)
  · intro hend
    obtain ⟨hread, hsize⟩ := trieMatchWalk_inside n d data hlen hd hend
    refine ⟨hread, hsize, ?_, ?_⟩
    · intro data' hd'
      rw [trieMatchWalk_rc, trieMatchWalk_rc]
      have hsame : trieMatch n data' d.length = 1 ↔ trieMatch n data d.length = 1 := by
        rw [trieMatch_spec n d data' hlen hd' hend, trieMatch_spec n d data hlen hd hend]
      have hle := trieMatch_le_one n data d.length
      have hle' := trieMatch_le_one n data' d.length
      omega
    · rw [trieMatchWalk_rc]
      exact trieMatch_spec n d data hlen hd hend

theorem matches_inside_inner :
    MatchesInside innerNode [97, 98, 99, 120] (bytesAt [97, 98, 99, 120]) ∧
    MatchesInside nineStrings [120, 106] (bytesAt [120, 106]) :=
  ⟨(matchesInside_iff innerNode _ _ (by decide) (LiesAt.bytesAt _)).mpr (by decide +kernel),
    (matchesInside_iff nineStrings _ _ (by decide) (LiesAt.bytesAt _)).mpr (by decide +kernel)⟩

/-- The strings `a` and `b`, each subscribed to once: the empty message ends at the
root, and the byte behind it is examined. -/
theorem not_matchesInside : ∃ root d data, root.WF ∧ d.length < sizeTSize ∧ LiesAt data d ∧
    ¬ MatchesInside root d data := by
  refine ⟨.node 0 [] (.sparse [97, 98]) fun _ => .node 1 [] (.sparse []) fun _ => .null, [],
    bytesAt [], ?_, by decide, LiesAt.bytesAt _, ?_⟩
  · refine ⟨Nat.zero_le _, ⟨by decide, by decide, fun _ _ => rfl⟩, by decide, fun _ _ => ?_⟩
    exact ⟨Nat.zero_le _, ⟨List.nodup_nil, Nat.zero_le _, by simp⟩, fun _ => Nat.one_pos,
      by simp [NodeLayout.slots]⟩
  · rintro ⟨hread, -⟩
    exact absurd (hread 0 (by decide)) (Nat.lt_irrefl 0)

end GridMq.PubSub
