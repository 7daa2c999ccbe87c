import GridMq.PubSub.TrieUnsubscribe
import GridMq.PubSub.TrieMatch
import GridMq.Utils.Err

set_option autoImplicit false

/-!
# When one call changes exactly one count

A call of `grid_trie_subscribe` or `grid_trie_unsubscribe` is about one string.
The calls that also change what is stored for another string are those that build
a node of the other layout in place of a node with subscriptions.  A string that
is not stored is looked for in the same way as a stored one; `leavesTrie` says
where that walk has to end for the call to change nothing.
-/

namespace GridMq.PubSub

/-! ## Subscribing -/

/-- A subscription counts its string once more, changes no other count, and
returns 1 for a string that was not stored. -/
def SubscribesExactly (root : TrieNode) (d : List UInt8) : Prop :=
  ∃ root' rc, trieSubscribe root d = .ok (root', rc) ∧ count root' d = count root d + 1 ∧
    (∀ s, s ≠ d → count root' s = count root s) ∧ (rc = 1 ↔ count root d = 0)

/-- The string that a subscription drops is another one, and it is stored. -/
theorem subscribeDrops_stored (n : TrieNode) :
    ∀ d t, subscribeDrops n d = some t → t ≠ d ∧ 0 < count n t := by
  induction n with
  | null =>
      intro d t h
      simp [subscribeDrops] at h
  | node refcount pfx u child ih =>
      intro d t h
      by_cases hpre : pfx <+: d
      · obtain ⟨x, rfl⟩ := hpre
        simp only [subscribeDrops, List.prefix_append, if_true, List.drop_left] at h
        cases x with
        | nil => simp at h
        | cons c rest =>
            cases hnext : nodeNext u c with
            | none =>
                simp only [hnext, Option.ite_none_right_eq_some, Option.some.injEq,
                  Bool.and_eq_true] at h
                obtain ⟨⟨-, hsub⟩, rfl⟩ := h
                simp only [nodeHasSubscribers, bne_iff_ne, ne_eq] at hsub
                rw [count_self]
                exact ⟨by simp, by omega⟩
            | some i =>
                simp only [hnext, Option.map_eq_some_iff] at h
                obtain ⟨t', ht', rfl⟩ := h
                obtain ⟨hne, hpos⟩ := ih i rest t' ht'
                refine ⟨by simpa using hne, ?_⟩
                rw [count_append, below, kid, hnext]
                exact hpos
      · simp [subscribeDrops, hpre] at h

/-- A subscription is exact unless its new child is the ninth of a node that holds
subscriptions. -/
theorem subscribesExactly_iff (root : TrieNode) (d : List UInt8) (hwf : root.WF)
    (hlt : count root d + 1 < uint32Size) :
    SubscribesExactly root d ↔ subscribeDrops root d = none := by
  obtain ⟨root', heq, -, -, hcount⟩ := trieSubscribe_spec root d hwf hlt
  have hrc : ((if count root d = 0 then 1 else 0) = 1) ↔ count root d = 0 := by
    split <;> simp [*]
  constructor
  · rintro ⟨r, rc, hr, -, hother, -⟩
    obtain ⟨rfl, rfl⟩ := Prod.mk.inj (Except.ok.inj (heq.symm.trans hr))
    cases hdrops : subscribeDrops root d with
    | none => rfl
    | some t =>
        obtain ⟨hne, hpos⟩ := subscribeDrops_stored root d t hdrops
        have hzero := hcount t
        rw [countAfterSubscribe, if_neg hne, if_pos hdrops, hother t hne] at hzero
        omega
  · intro hkeep
    refine ⟨root', _, heq, ?_, ?_, hrc⟩
    · rw [hcount, countAfterSubscribe, if_pos rfl]
    · intro s hs
      rw [hcount, countAfterSubscribe, if_neg hs, hkeep, if_neg (by simp)]

/-- A node below which nothing is stored but the string that ends there. -/
def leaf : TrieNode := .node 1 [] (.sparse []) fun _ => .null

theorem leaf_wf : leaf.WF :=
  ⟨Nat.zero_le _, ⟨List.nodup_nil, Nat.zero_le _, by simp⟩, fun _ => Nat.one_pos,
    by simp [NodeLayout.slots]⟩

/-- The strings `abc`, `abd` and `ac`, each subscribed to once. -/
def innerNode : TrieNode :=
  .node 0 [97] (.sparse [98, 99]) fun i =>
    if i = 0 then .node 0 [] (.sparse [99, 100]) fun _ => leaf else leaf

theorem innerNode_wf : innerNode.WF := by
  refine ⟨by decide, ⟨by decide, by decide, ?_⟩, by decide, ?_⟩
  · intro i _
    dsimp only
    split <;> rfl
  · intro i _
    dsimp only
    split
    · exact ⟨Nat.zero_le _, ⟨by decide, by decide, fun _ _ => rfl⟩, by decide, fun _ _ => leaf_wf⟩
    · exact leaf_wf

/-- The eight strings `xa` to `xh`, each subscribed to once. -/
def eightStrings : TrieNode :=
  .node 0 [120] (.sparse [97, 98, 99, 100, 101, 102, 103, 104]) fun _ => leaf

theorem eightStrings_wf : eightStrings.WF :=
  ⟨by decide, ⟨by decide, by decide, fun _ _ => rfl⟩, by decide, fun _ _ => leaf_wf⟩

/-- A prefix is split, and a ninth child makes a node dense. -/
theorem subscribes_exactly_split :
    SubscribesExactly innerNode [98] ∧ SubscribesExactly eightStrings [120, 105, 106] :=
  ⟨(subscribesExactly_iff innerNode [98] innerNode_wf (by decide +kernel)).mpr rfl,
    (subscribesExactly_iff eightStrings [120, 105, 106] eightStrings_wf (by decide +kernel)).mpr
      rfl⟩

/-- The empty string and the eight strings `a` to `h`, each subscribed to once. -/
def eightChildren : TrieNode :=
  .node 1 [] (.sparse [97, 98, 99, 100, 101, 102, 103, 104]) fun _ => leaf

theorem eightChildren_wf : eightChildren.WF :=
  ⟨Nat.zero_le _, ⟨by decide, by decide, fun _ _ => rfl⟩, fun _ => Nat.one_pos,
    fun _ _ => leaf_wf⟩

theorem count_leaf_le (s : List UInt8) : count leaf s ≤ 1 := by
  cases s <;> simp [leaf, count, nodeNext]

theorem count_eightChildren_le (s : List UInt8) : count eightChildren s ≤ 1 := by
  cases s with
  | nil => simp [eightChildren]
  | cons c rest =>
      have h := @count_append 1 [] (c :: rest)
        (.sparse [97, 98, 99, 100, 101, 102, 103, 104]) fun _ => leaf
      simp only [List.nil_append] at h
      rw [eightChildren, h, below, kid]
      split
      · simp
      · exact count_leaf_le rest

/-- Subscribing to `i` there drops the subscription to the empty string. -/
theorem not_subscribesExactly : ∃ root d, root.WF ∧
    (∀ s, count root s + 1 < uint32Size) ∧ ¬ SubscribesExactly root d := by
  have hfew : ∀ s, count eightChildren s + 1 < uint32Size := by
    intro s
    have := count_eightChildren_le s
    have hsize : uint32Size = 4294967296 := rfl
    omega
  refine ⟨eightChildren, [105], eightChildren_wf, hfew, ?_⟩
  rw [SubscribesExactly]
  rintro ⟨root', rc, h, -, hother, -⟩
  have hempty : (trieSubscribe eightChildren [105]).map (fun r => count r.1 []) = .ok 0 := by
    decide +kernel
  rw [h] at hempty
  have hzero : count root' [] = 0 := Except.ok.inj hempty
  rw [hother [] (by simp)] at hzero
  exact absurd hzero (by decide)

/-! ## Unsubscribing a stored string -/

/-- The call takes one from the count of the string, changes no other count, and
returns 1 when the count has become 0. -/
def UnsubscribesExactly (root : TrieNode) (d : List UInt8) : Prop :=
  ∃ root' rc, trieUnsubscribe root d = .ok (root', rc) ∧ count root' d + 1 = count root d ∧
    (∀ s, s ≠ d → count root' s = count root s) ∧ (rc = some 1 ↔ count root' d = 0)

/-- The string that a removal drops is another one, and it is stored. -/
theorem unsubscribeDrops_stored (n : TrieNode) :
    ∀ d t, unsubscribeDrops n d = some t → t ≠ d ∧ 0 < count n t := by
  induction n with
  | null =>
      intro d t h
      simp [unsubscribeDrops] at h
  | node refcount pfx u child ih =>
      intro d t h
      by_cases hpre : pfx <+: d
      · obtain ⟨x, rfl⟩ := hpre
        simp only [unsubscribeDrops, List.prefix_append, if_true, List.drop_left] at h
        cases x with
        | nil => simp at h
        | cons c rest =>
            cases hnext : nodeNext u c with
            | none => simp [hnext] at h
            | some i =>
                simp only [hnext] at h
                split at h
                · simp only [Option.ite_none_right_eq_some, Option.some.injEq,
                    Bool.and_eq_true] at h
                  obtain ⟨⟨-, hsub⟩, rfl⟩ := h
                  simp only [nodeHasSubscribers, bne_iff_ne, ne_eq] at hsub
                  rw [count_self]
                  exact ⟨by simp, by omega⟩
                · simp only [Option.map_eq_some_iff] at h
                  obtain ⟨t', ht', rfl⟩ := h
                  obtain ⟨hne, hpos⟩ := ih i rest t' ht'
                  refine ⟨by simpa using hne, ?_⟩
                  rw [count_append, below, kid, hnext]
                  exact hpos
      · simp [unsubscribeDrops, hpre] at h

/-- Unsubscribing a stored string is exact unless it removes one of the nine
children of a dense node that holds subscriptions. -/
theorem unsubscribesExactly_iff (root : TrieNode) (d : List UInt8) (hwf : root.WF)
    (hpos : 0 < count root d) :
    UnsubscribesExactly root d ↔ unsubscribeDrops root d = none := by
  obtain ⟨root', heq, -, -, hcount⟩ := nodeUnsubscribe_spec root d hwf hpos
  have hself : count root' d = count root d - 1 := by
    rw [hcount, countAfterUnsubscribe, if_pos rfl]
  constructor
  · rintro ⟨r, rc, hr, -, hother, -⟩
    obtain ⟨rfl, rfl⟩ := Prod.mk.inj (Except.ok.inj (heq.symm.trans hr))
    cases hdrops : unsubscribeDrops root d with
    | none => rfl
    | some t =>
        obtain ⟨hne, hstored⟩ := unsubscribeDrops_stored root d t hdrops
        have hzero := hcount t
        rw [countAfterUnsubscribe, if_neg hne, if_pos hdrops, hother t hne] at hzero
        omega
  · intro hkeep
    refine ⟨root', _, heq, by omega, ?_, ?_⟩
    · intro s hs
      rw [hcount, countAfterUnsubscribe, if_neg hs, hkeep, if_neg (by simp)]
    · rw [hself]
      by_cases hone : count root d = 1
      · simp [hone]
      · simp only [if_neg hone, Option.some.injEq, Nat.zero_ne_one, false_iff]
        omega

/-- The nine strings `xa` to `xi`, each subscribed to once. -/
def nineStrings : TrieNode := .node 0 [120] (.dense 97 105 9) fun _ => leaf

theorem nineStrings_wf : nineStrings.WF :=
  ⟨by decide, ⟨by decide, by decide, rfl, rfl, by decide, by decide⟩, by decide, fun _ _ => leaf_wf⟩

/-- Two nodes become one, and a dense node becomes sparse. -/
theorem unsubscribes_exactly_compact :
    UnsubscribesExactly innerNode [97, 98, 99] ∧ UnsubscribesExactly nineStrings [120, 105] :=
  ⟨(unsubscribesExactly_iff innerNode [97, 98, 99] innerNode_wf (by decide +kernel)).mpr
      (by decide +kernel),
    (unsubscribesExactly_iff nineStrings [120, 105] nineStrings_wf (by decide +kernel)).mpr
      (by decide +kernel)⟩

/-- The empty string and the nine strings `a` to `i`, each subscribed to once. -/
def nineChildren : TrieNode := .node 1 [] (.dense 97 105 9) fun _ => leaf

theorem nineChildren_wf : nineChildren.WF :=
  ⟨Nat.zero_le _, ⟨by decide, by decide, rfl, rfl, by decide, by decide⟩,
    fun _ => Nat.one_pos, fun _ _ => leaf_wf⟩

/-- Unsubscribing `a` there drops the subscription to the empty string. -/
theorem not_unsubscribesExactly : ∃ root d, root.WF ∧ 0 < count root d ∧
    ¬ UnsubscribesExactly root d := by
  refine ⟨nineChildren, [97], nineChildren_wf, by decide, ?_⟩
  rw [UnsubscribesExactly]
  rintro ⟨root', rc, h, -, hother, -⟩
  have hempty : (trieUnsubscribe nineChildren [97]).map (fun r => count r.1 []) = .ok 0 := by
    rfl
  rw [h] at hempty
  have hzero : count root' [] = 0 := Except.ok.inj hempty
  rw [hother [] (by simp)] at hzero
  exact absurd hzero (by decide)

/-! ## Unsubscribing a string that is not stored -/

/-- The call returns without following a NULL node, keeps what is stored and what
is matched, and reports no removal. -/
def UnsubscribesHarmlessly (root : TrieNode) (d : List UInt8) : Prop :=
  ∃ root' rc, trieUnsubscribe root d = .ok (root', rc) ∧
    (∀ s, 0 < count root s → count root' s = count root s) ∧
    (∀ data size, trieMatch root' data size = trieMatch root data size) ∧ rc ≠ some 1

/-- Before the string ends, the walk for it meets a byte that differs from the
prefix of a node or that has no slot there. -/
def leavesPath : TrieNode → List UInt8 → Bool
  | .null, _ => false
  | .node _ pfx u child, d =>
      if d = [] then false
      else if pfx <+: d then
        match d.drop pfx.length with
        | [] => false
        | c :: rest =>
            match nodeNext u c with
            | none => true
            | some i => leavesPath (child i) rest
      else true

/-- The string is looked for at the root alone, which holds no subscription. -/
def endsAtRoot : TrieNode → List UInt8 → Bool
  | .null, d => d.isEmpty
  | .node refcount pfx _ _, d => refcount == 0 && (d.isEmpty || d == pfx)

/-- Where the walk for a string that is not stored ends without changing the trie. -/
def leavesTrie (root : TrieNode) (d : List UInt8) : Bool :=
  leavesPath root d || endsAtRoot root d

theorem setChild_self (child : Nat → TrieNode) (i : Nat) :
    setChild child i (child i) = child := by
  funext j
  by_cases hj : j = i
  · rw [hj, setChild_same]
  · rw [setChild_ne hj]

/-- A walk that leaves the trie before the string ends changes nothing. -/
theorem nodeUnsubscribe_leavesPath (n : TrieNode) :
    ∀ d, leavesPath n d = true → nodeUnsubscribe n d = .ok (n, some 0) := by
  induction n with
  | null =>
      intro d h
      exact Bool.noConfusion h
  | node refcount pfx u child ih =>
      intro d h
      by_cases hpre : pfx <+: d
      · obtain ⟨t, rfl⟩ := hpre
        simp only [leavesPath, List.prefix_append, if_true, List.drop_left] at h
        cases t with
        | nil => simp at h
        | cons c rest =>
            rw [if_neg (by simp)] at h
            cases hnext : nodeNext u c with
            | none => rw [nodeUnsubscribe_cons, hnext]
            | some i =>
                simp only [hnext] at h
                rw [nodeUnsubscribe_below hnext (ih i rest h), if_pos rfl, setChild_self]
      · cases d with
        | nil => simp [leavesPath] at h
        | cons b data =>
            rw [nodeUnsubscribe, if_pos]
            exact fun heq => hpre ((nodeCheckPrefix_eq_length_iff pfx (b :: data)).mp heq)

/-- A string that ends at the root without subscriptions changes nothing either. -/
theorem nodeUnsubscribe_endsAtRoot {root : TrieNode} {d : List UInt8}
    (h : endsAtRoot root d = true) : nodeUnsubscribe root d = .ok (root, none) := by
  cases root with
  | null =>
      obtain rfl : d = [] := by simpa [endsAtRoot] using h
      rw [nodeUnsubscribe, unsubscribeFound]
  | node refcount pfx u child =>
      simp only [endsAtRoot, Bool.and_eq_true, beq_iff_eq, Bool.or_eq_true,
        List.isEmpty_iff] at h
      obtain ⟨rfl, hd⟩ := h
      have hfound : nodeUnsubscribe (.node 0 pfx u child) d =
          unsubscribeFound (.node 0 pfx u child) := by
        rcases hd with rfl | rfl
        · rw [nodeUnsubscribe]
        · exact nodeUnsubscribe_self 0 d u child
      rw [hfound]
      rfl

/-- The end of a walk at a node with subscriptions counts them once less, whatever
the string was. -/
theorem unsubscribeFound_lowers {refcount : Nat} {pfx : List UInt8} {u : NodeLayout}
    {child : Nat → TrieNode} {n : TrieNode} {rc : Option Nat} (hr : 0 < refcount)
    (h : unsubscribeFound (.node refcount pfx u child) = .ok (n, rc)) :
    rc = some 1 ∨ count n pfx + 1 = refcount := by
  have hsub : nodeHasSubscribers refcount = true := by
    simp only [nodeHasSubscribers, bne_iff_ne, ne_eq]
    omega
  rw [unsubscribeFound, if_pos hsub] at h
  by_cases hone : refcount - 1 = 0
  · left
    rw [if_pos hone] at h
    split at h
    · exact (Prod.mk.inj (Except.ok.inj h)).2.symm
    · obtain ⟨self, -, hself⟩ := bind_eq_ok_iff.mp h
      exact (Prod.mk.inj (Except.ok.inj hself)).2.symm
  · right
    rw [if_neg hone] at h
    obtain ⟨rfl, -⟩ := Prod.mk.inj (Except.ok.inj h)
    rw [count_self]
    omega

/-- What the callers make of a call that did not return 0: a removal. -/
theorem removal_of_below {self n : TrieNode} {ch : TrieNode} {rc rc' : Option Nat}
    {prune : Except Fault TrieNode} (hrc : rc' ≠ some 0)
    (h : (if rc' = some 0 then pure (self, some 0)
      else if ch.isNull then do
        let self ← prune
        return (self, some 1)
      else return (self, some 1) : Except Fault (TrieNode × Option Nat)) = .ok (n, rc)) :
    rc = some 1 := by
  rw [if_neg hrc] at h
  split at h
  · obtain ⟨pruned, -, hpruned⟩ := bind_eq_ok_iff.mp h
    exact (Prod.mk.inj (Except.ok.inj hpruned)).2.symm
  · exact (Prod.mk.inj (Except.ok.inj h)).2.symm

/-- What a call below does to a count, or reports other than 0, the call changes or
reports as a removal. -/
theorem harms_of_below {refcount i : Nat} {pfx rest : List UInt8} {u : NodeLayout}
    {child : Nat → TrieNode} {c : UInt8} {n' : TrieNode} {rc : Option Nat}
    (hnext : nodeNext u c = some i)
    (hin : ∀ ch rc', nodeUnsubscribe (child i) rest = .ok (ch, rc') →
      rc' ≠ some 0 ∨ ∃ s, 0 < count (child i) s ∧ count ch s ≠ count (child i) s)
    (h : nodeUnsubscribe (.node refcount pfx u child) (pfx ++ c :: rest) = .ok (n', rc)) :
    rc = some 1 ∨ ∃ s, 0 < count (.node refcount pfx u child) s ∧
      count n' s ≠ count (.node refcount pfx u child) s := by
  have hkid : kid u child c = child i := by simp [kid, hnext]
  rw [nodeUnsubscribe_cons] at h
  simp only [hnext] at h
  obtain ⟨⟨ch, rc'⟩, hch, hrest⟩ := bind_eq_ok_iff.mp h
  by_cases hrc : rc' = some 0
  · right
    simp only [hrc, if_true] at hrest
    obtain ⟨rfl, -⟩ := Prod.mk.inj (Except.ok.inj hrest)
    rcases hin ch rc' hch with hne | ⟨s, hs, hless⟩
    · exact absurd hrc hne
    · refine ⟨pfx ++ c :: s, ?_, ?_⟩
      · rwa [count_append, below, hkid]
      · rwa [count_append, count_append, below, below, hkid, kid_setChild hnext, if_pos rfl]
  · exact Or.inl (removal_of_below hrc hrest)

/-- Below the root, a walk for a string that is not stored and that does not leave
the trie is fatal, is reported as a removal, or counts another string less. -/
theorem nodeUnsubscribe_harms (n : TrieNode) :
    ∀ d n' rc, count n d = 0 → leavesPath n d = false → nodeUnsubscribe n d = .ok (n', rc) →
      rc ≠ some 0 ∨ ∃ s, 0 < count n s ∧ count n' s ≠ count n s := by
  induction n with
  | null =>
      intro d n' rc _ _ h
      cases d with
      | nil =>
          rw [nodeUnsubscribe, unsubscribeFound] at h
          obtain ⟨-, rfl⟩ := Prod.mk.inj (Except.ok.inj h)
          exact Or.inl (by simp)
      | cons b data => simp [nodeUnsubscribe] at h
  | node refcount pfx u child ih =>
      intro d n' rc hzero hpath h
      by_cases hd : d = []
      · -- the string ends before the prefix of this node is looked at
        subst d
        rw [nodeUnsubscribe] at h
        by_cases hr : refcount = 0
        · rw [unsubscribeFound, if_neg (by simp [nodeHasSubscribers, hr])] at h
          obtain ⟨-, rfl⟩ := Prod.mk.inj (Except.ok.inj h)
          exact Or.inl (by simp)
        · rcases unsubscribeFound_lowers (Nat.pos_of_ne_zero hr) h with rfl | hless
          · exact Or.inl (by simp)
          · exact Or.inr ⟨pfx, by rw [count_self]; omega, by rw [count_self]; omega⟩
      · rw [leavesPath, if_neg hd] at hpath
        by_cases hpre : pfx <+: d
        · obtain ⟨t, rfl⟩ := hpre
          simp only [List.prefix_append, if_true, List.drop_left] at hpath
          cases t with
          | nil =>
              -- the string ends at this node, which holds no subscription
              rw [List.append_nil, count_self] at hzero
              rw [List.append_nil, nodeUnsubscribe_self, unsubscribeFound,
                if_neg (by simp [nodeHasSubscribers, hzero])] at h
              obtain ⟨-, rfl⟩ := Prod.mk.inj (Except.ok.inj h)
              exact Or.inl (by simp)
          | cons c rest =>
              cases hnext : nodeNext u c with
              | none => simp [hnext] at hpath
              | some i =>
                  simp only [hnext] at hpath
                  have hkid : kid u child c = child i := by simp [kid, hnext]
                  rw [count_append, below, hkid] at hzero
                  rcases harms_of_below hnext (fun ch rc' => ih i rest ch rc' hzero hpath) h
                    with rfl | hless
                  · exact Or.inl (by simp)
                  · exact Or.inr hless
        · simp [hpre] at hpath

/-- Unsubscribing a string that is not stored is harmless exactly when the walk for
it leaves the trie before the string ends, or ends at a root without subscriptions. -/
theorem unsubscribesHarmlessly_iff (root : TrieNode) (d : List UInt8)
    (hzero : count root d = 0) :
    UnsubscribesHarmlessly root d ↔ leavesTrie root d = true := by
  constructor
  · rintro ⟨n', rc, h, hkept, -, hrc⟩
    rw [trieUnsubscribe] at h
    by_contra hstay
    simp only [leavesTrie, Bool.not_eq_true, Bool.or_eq_false_iff] at hstay
    obtain ⟨hpath, hroot⟩ := hstay
    have hharm : rc = some 1 ∨ ∃ s, 0 < count root s ∧ count n' s ≠ count root s := by
      cases root with
      | null =>
          cases d with
          | nil => simp [endsAtRoot] at hroot
          | cons b data => simp [nodeUnsubscribe] at h
      | node refcount pfx u child =>
          by_cases hd : d = []
          · subst d
            have hr : refcount ≠ 0 := by simpa [endsAtRoot] using hroot
            rw [nodeUnsubscribe] at h
            rcases unsubscribeFound_lowers (Nat.pos_of_ne_zero hr) h with hone | hless
            · exact Or.inl hone
            · exact Or.inr ⟨pfx, by rw [count_self]; omega, by rw [count_self]; omega⟩
          · rw [leavesPath, if_neg hd] at hpath
            by_cases hpre : pfx <+: d
            · obtain ⟨t, rfl⟩ := hpre
              simp only [List.prefix_append, if_true, List.drop_left] at hpath
              cases t with
              | nil =>
                  rw [List.append_nil, count_self] at hzero
                  simp [endsAtRoot, hzero] at hroot
              | cons c rest =>
                  cases hnext : nodeNext u c with
                  | none => simp [hnext] at hpath
                  | some i =>
                      simp only [hnext] at hpath
                      have hkid : kid u child c = child i := by simp [kid, hnext]
                      rw [count_append, below, hkid] at hzero
                      exact harms_of_below hnext
                        (fun ch rc' => nodeUnsubscribe_harms (child i) rest ch rc' hzero hpath) h
            · simp [hpre] at hpath
    rcases hharm with hone | ⟨s, hs, hless⟩
    · exact hrc hone
    · exact hless (hkept s hs)
  · intro h
    rw [leavesTrie, Bool.or_eq_true] at h
    rcases h with hpath | hroot
    · exact ⟨root, some 0, nodeUnsubscribe_leavesPath root d hpath, fun _ _ => rfl,
        fun _ _ => rfl, by simp⟩
    · exact ⟨root, none, nodeUnsubscribe_endsAtRoot hroot, fun _ _ => rfl,
        fun _ _ => rfl, by simp⟩

/-- The way to the string ends at a prefix, at a missing child and outside a dense node. -/
theorem unsubscribes_harmlessly_other :
    UnsubscribesHarmlessly innerNode [98] ∧ UnsubscribesHarmlessly innerNode [97, 98, 101] ∧
      UnsubscribesHarmlessly nineStrings [120, 106] :=
  ⟨(unsubscribesHarmlessly_iff innerNode [98] (by decide +kernel)).mpr (by decide +kernel),
    (unsubscribesHarmlessly_iff innerNode [97, 98, 101]
      (by decide +kernel)).mpr (by decide +kernel),
    (unsubscribesHarmlessly_iff nineStrings [120, 106] (by decide +kernel)).mpr (by decide +kernel)⟩

/-- The string `a`, subscribed to once. -/
def onlyA : TrieNode := .node 1 [97] (.sparse []) fun _ => .null

theorem onlyA_wf : onlyA.WF :=
  ⟨by decide, ⟨List.nodup_nil, Nat.zero_le _, by simp⟩, fun _ => Nat.one_pos,
    by simp [NodeLayout.slots]⟩

/-- The empty trie follows a NULL node; a string that ends at an inner node is reported
as removed; the empty string takes the subscription of the root. -/
theorem not_unsubscribesHarmlessly :
    (count trieInit [97] = 0 ∧ ¬ UnsubscribesHarmlessly trieInit [97]) ∧
    (innerNode.WF ∧ count innerNode [97, 98] = 0 ∧ ¬ UnsubscribesHarmlessly innerNode [97, 98]) ∧
    (onlyA.WF ∧ count onlyA [] = 0 ∧ ¬ UnsubscribesHarmlessly onlyA []) := by
  refine ⟨⟨rfl, ?_⟩, ⟨innerNode_wf, by decide +kernel, ?_⟩, ⟨onlyA_wf, by decide, ?_⟩⟩
  · rintro ⟨n', rc, h, -⟩
    simp [trieUnsubscribe, trieInit, nodeUnsubscribe] at h
  · rintro ⟨n', rc, h, -, -, hrc⟩
    have hremoved : (trieUnsubscribe innerNode [97, 98]).map Prod.snd = .ok (some 1) := by
      decide +kernel
    rw [h] at hremoved
    exact hrc (Except.ok.inj hremoved)
  · rintro ⟨n', rc, h, -, -, hrc⟩
    have hremoved : (trieUnsubscribe onlyA []).map Prod.snd = .ok (some 1) := by
      decide +kernel
    rw [h] at hremoved
    exact hrc (Except.ok.inj hremoved)

end GridMq.PubSub
