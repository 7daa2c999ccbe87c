import GridMq.PubSub.TrieUnsubscribe
import GridMq.PubSub.TrieMatch

set_option autoImplicit false

/-!
# The subscriptions of a SUB socket over whole runs

A run is a sequence of `grid_trie_subscribe` and `grid_trie_unsubscribe` calls
from `grid_trie_init` on.  As long as no call drops the count of another string
(`subscribeDrops`, `unsubscribeDrops`), the trie counts exactly the subscriptions
still in force, and `grid_trie_match` filters by them.
-/

namespace GridMq.PubSub

/-- A call that changes the subscriptions. -/
inductive TrieCall where
  | subscribe (s : List UInt8)
  | unsubscribe (s : List UInt8)
  deriving DecidableEq, Repr

/-- The trie after one call. -/
def trieCall (root : TrieNode) : TrieCall → Except Fault TrieNode
  | .subscribe s => (trieSubscribe root s).map Prod.fst
  | .unsubscribe s => (trieUnsubscribe root s).map Prod.fst

/-- The trie after a sequence of calls. -/
def runCalls (root : TrieNode) (calls : List TrieCall) : Except Fault TrieNode :=
  calls.foldlM trieCall root

/-- How often `s` was subscribed to, less how often it was unsubscribed from. -/
def inForce (calls : List TrieCall) (s : List UInt8) : Nat :=
  calls.count (.subscribe s) - calls.count (.unsubscribe s)

/-- The number of subscribe calls. -/
def subscribes (calls : List TrieCall) : Nat :=
  calls.countP fun call => match call with
    | .subscribe _ => true
    | .unsubscribe _ => false

/-- Each unsubscribe names a string whose earlier subscribes outnumber its earlier
unsubscribes. -/
def Balanced (calls : List TrieCall) : Prop :=
  ∀ before after s, calls = before ++ .unsubscribe s :: after →
    before.count (.unsubscribe s) < before.count (.subscribe s)

/-- The string whose count a call drops besides counting its own. -/
def callDrops (root : TrieNode) : TrieCall → Option (List UInt8)
  | .subscribe s => subscribeDrops root s
  | .unsubscribe s => unsubscribeDrops root s

/-- No call of the run finds the trie in a state in which it drops a count. -/
def KeepsCounts (calls : List TrieCall) : Prop :=
  ∀ before call after root, calls = before ++ call :: after →
    runCalls trieInit before = .ok root → callDrops root call = none

/-! ## One call -/

theorem runCalls_concat (root : TrieNode) (calls : List TrieCall) (call : TrieCall) :
    runCalls root (calls ++ [call]) = runCalls root calls >>= fun n => trieCall n call := by
  simp [runCalls, List.foldlM_append]

/-- A subscribe call that drops nothing adds one to the count of its string. -/
theorem trieCall_subscribe {root : TrieNode} {d : List UInt8} (hwf : root.WF)
    (hlt : count root d + 1 < uint32Size) (hkeep : subscribeDrops root d = none) :
    ∃ root', trieCall root (.subscribe d) = .ok root' ∧ root'.WF ∧
      ∀ s, count root' s = if s = d then count root d + 1 else count root s := by
  obtain ⟨root', heq, -, hwf', hcount⟩ := trieSubscribe_spec root d hwf hlt
  refine ⟨root', by simp [trieCall, heq, Except.map], hwf', ?_⟩
  intro s
  rw [hcount, countAfterSubscribe, hkeep]
  simp

/-- An unsubscribe call that drops nothing takes one from the count of its string. -/
theorem trieCall_unsubscribe {root : TrieNode} {d : List UInt8} (hwf : root.WF)
    (hpos : 0 < count root d) (hkeep : unsubscribeDrops root d = none) :
    ∃ root', trieCall root (.unsubscribe d) = .ok root' ∧ root'.WF ∧
      ∀ s, count root' s = if s = d then count root d - 1 else count root s := by
  obtain ⟨root', heq, hwf', -, hcount⟩ := nodeUnsubscribe_spec root d hwf hpos
  refine ⟨root', by simp [trieCall, trieUnsubscribe, heq, Except.map], hwf', ?_⟩
  intro s
  rw [hcount, countAfterUnsubscribe, hkeep]
  simp

/-! ## Prefixes of a run -/

theorem Balanced.init {calls : List TrieCall} {call : TrieCall}
    (h : Balanced (calls ++ [call])) : Balanced calls := by
  intro before after s heq
  exact h before (after ++ [call]) s (by simp [heq])

theorem KeepsCounts.init {calls : List TrieCall} {call : TrieCall}
    (h : KeepsCounts (calls ++ [call])) : KeepsCounts calls := by
  intro before c after root heq hrun
  exact h before c (after ++ [call]) root (by simp [heq]) hrun

theorem inForce_le_subscribes (calls : List TrieCall) (s : List UInt8) :
    inForce calls s ≤ subscribes calls := by
  have : calls.count (.subscribe s) ≤ subscribes calls := by
    refine List.countP_mono_left ?_
    intro call _ hcall
    simp only [beq_iff_eq] at hcall
    rw [hcall]
  unfold inForce
  omega

theorem inForce_subscribe (calls : List TrieCall) (d s : List UInt8)
    (hle : calls.count (.unsubscribe s) ≤ calls.count (.subscribe s)) :
    inForce (calls ++ [.subscribe d]) s =
      if s = d then inForce calls s + 1 else inForce calls s := by
  unfold inForce
  by_cases hs : s = d
  · subst s
    simp [List.count_append]
    omega
  · simp [List.count_append, hs, Ne.symm hs]

theorem inForce_unsubscribe (calls : List TrieCall) (d s : List UInt8) :
    inForce (calls ++ [.unsubscribe d]) s =
      if s = d then inForce calls s - 1 else inForce calls s := by
  unfold inForce
  by_cases hs : s = d
  · subst s
    simp [List.count_append]
    omega
  · simp [List.count_append, hs, Ne.symm hs]

/-- In a balanced run no string is unsubscribed from more often than subscribed
to. -/
theorem Balanced.count_le (calls : List TrieCall) (h : Balanced calls) (s : List UInt8) :
    calls.count (.unsubscribe s) ≤ calls.count (.subscribe s) := by
  induction calls using List.reverseRecOn with
  | nil => simp
  | append_singleton calls call ih =>
      have hle := ih h.init
      cases call with
      | subscribe d =>
          simp only [List.count_append]
          simp
          omega
      | unsubscribe d =>
          by_cases hs : d = s
          · subst d
            have hlt := h calls [] s rfl
            simp [List.count_append]
            omega
          · simpa [List.count_append, List.count_singleton, hs] using hle

/-! ## Whole runs -/

/-- Along a balanced run that drops nothing, no call fails and the trie counts
the subscriptions in force. -/
theorem runCalls_spec (calls : List TrieCall) (hbal : Balanced calls)
    (hfew : subscribes calls < uint32Size) (hkeep : KeepsCounts calls) :
    ∃ root, runCalls trieInit calls = .ok root ∧ root.WF ∧
      ∀ s, count root s = inForce calls s := by
  induction calls using List.reverseRecOn with
  | nil =>
      refine ⟨.null, rfl, trivial, ?_⟩
      intro s
      simp [inForce]
  | append_singleton calls call ih =>
      have hsub : subscribes (calls ++ [call]) = subscribes calls + subscribes [call] := by
        simp only [subscribes, List.countP_append]
      obtain ⟨root, hrun, hwf, hcount⟩ := ih hbal.init (by omega) hkeep.init
      have hdrop := hkeep calls call [] root rfl hrun
      rw [runCalls_concat, hrun]
      cases call with
      | subscribe d =>
          have hone : subscribes [.subscribe d] = 1 := rfl
          have hlt : count root d + 1 < uint32Size := by
            have := inForce_le_subscribes calls d
            rw [hcount]
            omega
          obtain ⟨root', heq, hwf', hcount'⟩ := trieCall_subscribe hwf hlt hdrop
          refine ⟨root', heq, hwf', ?_⟩
          intro s
          rw [hcount', inForce_subscribe _ _ _ (hbal.init.count_le _ s)]
          split
          · rename_i hs
            rw [hs, hcount]
          · exact hcount s
      | unsubscribe d =>
          have hpos : 0 < count root d := by
            have := hbal calls [] d rfl
            rw [hcount, inForce]
            omega
          obtain ⟨root', heq, hwf', hcount'⟩ := trieCall_unsubscribe hwf hpos hdrop
          refine ⟨root', heq, hwf', ?_⟩
          intro s
          rw [hcount', inForce_unsubscribe]
          split
          · rename_i hs
            rw [hs, hcount]
          · exact hcount s

/-! ## The representation invariant over runs -/

/-- The string may be subscribed to once more, or is stored and may be unsubscribed. -/
def CallAllowed (root : TrieNode) : TrieCall → Prop
  | .subscribe s => count root s + 1 < uint32Size
  | .unsubscribe s => 0 < count root s

/-- Every call of the run is allowed in the trie it finds. -/
def AllAllowed (calls : List TrieCall) : Prop :=
  ∀ before call after root, calls = before ++ call :: after →
    runCalls trieInit before = .ok root → CallAllowed root call

instance (root : TrieNode) : (call : TrieCall) → Decidable (CallAllowed root call)
  | .subscribe s => inferInstanceAs (Decidable (count root s + 1 < uint32Size))
  | .unsubscribe s => inferInstanceAs (Decidable (0 < count root s))

theorem AllAllowed.init {calls : List TrieCall} {call : TrieCall}
    (h : AllAllowed (calls ++ [call])) : AllAllowed calls := by
  intro before c after root heq hrun
  exact h before c (after ++ [call]) root (by simp [heq]) hrun

/-- One call, whatever it drops. -/
theorem trieCall_wf {root : TrieNode} {call : TrieCall} (hwf : root.WF)
    (hallowed : CallAllowed root call) : ∃ root', trieCall root call = .ok root' ∧ root'.WF := by
  cases call with
  | subscribe d =>
      obtain ⟨root', heq, -, hwf', -⟩ := trieSubscribe_spec root d hwf hallowed
      exact ⟨root', by simp [trieCall, heq, Except.map], hwf'⟩
  | unsubscribe d =>
      obtain ⟨root', heq, hwf', -⟩ := nodeUnsubscribe_spec root d hwf hallowed
      exact ⟨root', by simp [trieCall, trieUnsubscribe, heq, Except.map], hwf'⟩

/-- No call of such a run fails an assertion or follows a NULL node, and the trie it leaves
is well formed. -/
theorem wf_of_allAllowed (calls : List TrieCall) (hallowed : AllAllowed calls) :
    ∃ root, runCalls trieInit calls = .ok root ∧ root.WF := by
  induction calls using List.reverseRecOn with
  | nil => exact ⟨.null, rfl, trivial⟩
  | append_singleton calls call ih =>
      obtain ⟨root, hrun, hwf⟩ := ih hallowed.init
      obtain ⟨root', hcall, hwf'⟩ := trieCall_wf hwf (hallowed calls call [] root rfl hrun)
      refine ⟨root', ?_, hwf'⟩
      rw [runCalls_concat, hrun]
      exact hcall

/-- `p` holds of every call of the run and the trie that it finds. -/
def allCalls (p : TrieNode → TrieCall → Bool) : TrieNode → List TrieCall → Bool
  | _, [] => true
  | root, call :: rest =>
      p root call && match trieCall root call with
        | .ok root' => allCalls p root' rest
        | .error _ => true

theorem allCalls_spec {p : TrieNode → TrieCall → Bool} {calls : List TrieCall} :
    ∀ {root : TrieNode}, allCalls p root calls = true → ∀ before call after root',
      calls = before ++ call :: after → runCalls root before = .ok root' → p root' call = true := by
  induction calls with
  | nil =>
      intro root _ before call after root' heq
      simp at heq
  | cons c rest ih =>
      intro root h before call after root' heq hrun
      obtain ⟨hc, hrest⟩ := Bool.and_eq_true_iff.mp h
      cases before with
      | nil =>
          obtain rfl := Except.ok.inj hrun
          obtain rfl := (List.cons.inj heq).1
          exact hc
      | cons b before =>
          obtain ⟨rfl, hrest'⟩ := List.cons.inj heq
          rw [runCalls, List.foldlM_cons] at hrun
          cases hcall : trieCall root c with
          | error e =>
              rw [hcall] at hrun
              cases hrun
          | ok root₁ =>
              rw [hcall] at hrun hrest
              exact ih hrest before call after root' hrest' hrun

/-- Prefixes that are split, a ninth child, and strings that are unsubscribed from after it. -/
def growing : List TrieCall :=
  [.subscribe [97, 98, 99], .subscribe [97, 98, 100], .subscribe [97, 99]] ++
    [97, 98, 99, 100, 101, 102, 103, 104, 105].map fun c => .subscribe [120, c]

def shrinking : List TrieCall :=
  growing ++ [.unsubscribe [97, 98, 100]] ++ [.unsubscribe [120, 105]]

theorem wf_shrinking : ∃ root, runCalls trieInit shrinking = .ok root ∧ root.WF := by
  refine wf_of_allAllowed _ ?_
  have hall : allCalls (fun root call => decide (CallAllowed root call)) trieInit shrinking =
      true := by decide +kernel
  intro before call after root heq hrun
  exact of_decide_eq_true (allCalls_spec hall before call after root heq hrun)

/-- A trie that stores one string of one byte. -/
def leafTrie (refcount : Nat) : TrieNode := .node refcount [97] (.sparse []) fun _ => .null

theorem trieCall_leafTrie (n : Nat) :
    trieCall (leafTrie n) (.subscribe [97]) = .ok (leafTrie ((n + 1) % uint32Size)) := by
  simp [trieCall, leafTrie, trieSubscribe, nodeCheckPrefix, bytesAt, step5, Except.map]

theorem runCalls_leafTrie (n : Nat) :
    runCalls trieInit (List.replicate (n + 1) (.subscribe [97])) =
      .ok (leafTrie ((n + 1) % uint32Size)) := by
  induction n with
  | zero => rfl
  | succ n ih =>
      rw [List.replicate_succ', runCalls_concat, ih]
      refine (trieCall_leafTrie _).trans ?_
      rw [Nat.mod_add_mod]

/-- The count of a string comes back to 0 after `2 ^ 32` subscriptions: the node that holds
it is left without children and without subscriptions. -/
theorem not_wf_subscriptions : ∃ calls root, (∀ call ∈ calls, call = .subscribe [97]) ∧
    runCalls trieInit calls = .ok root ∧ ¬ root.WF := by
  refine ⟨List.replicate (uint32Size - 1 + 1) (.subscribe [97]), _,
    fun call hcall => List.eq_of_mem_replicate hcall, runCalls_leafTrie _, fun hwf => ?_⟩
  have hpos : 0 < (uint32Size - 1 + 1) % uint32Size := hwf.2.2.1 rfl
  exact absurd hpos (by decide)

/-- The filter a SUB socket applies to the message `d`: the run of calls succeeds,
and the message passes exactly when a subscription in force is a prefix of it. -/
def Filters (calls : List TrieCall) (d : List UInt8) (data : Nat → UInt8) : Prop :=
  ∃ root, runCalls trieInit calls = .ok root ∧
    (trieMatch root data d.length = 1 ↔ ∃ s, 0 < inForce calls s ∧ s <+: d)

/-- A balanced run that drops no counts filters by the subscriptions in force
every message that does not end inside the trie. -/
theorem filters_of_keepsCounts (calls : List TrieCall) (d : List UInt8) (data : Nat → UInt8)
    (hbal : Balanced calls) (hfew : subscribes calls < uint32Size)
    (hlen : d.length < sizeTSize) (hd : LiesAt data d) (hkeep : KeepsCounts calls)
    (hend : ∀ root, runCalls trieInit calls = .ok root → endsInside root d = false) :
    Filters calls d data := by
  obtain ⟨root, hrun, -, hcount⟩ := runCalls_spec calls hbal hfew hkeep
  refine ⟨root, hrun, ?_⟩
  rw [trieMatch_spec root d data hlen hd (hend root hrun)]
  simp only [hcount]

theorem balanced_of_subscribes {calls : List TrieCall}
    (h : ∀ call ∈ calls, ∃ s, call = .subscribe s) : Balanced calls := by
  intro before after s heq
  obtain ⟨s', hs'⟩ := h (.unsubscribe s) (by simp [heq])
  exact TrieCall.noConfusion hs'

theorem Balanced.unsubscribe {calls : List TrieCall} {s : List UInt8} (h : Balanced calls)
    (hlt : calls.count (.unsubscribe s) < calls.count (.subscribe s)) :
    Balanced (calls ++ [.unsubscribe s]) := by
  intro before after s' heq
  rcases List.eq_nil_or_concat after with rfl | ⟨after', x, rfl⟩
  · obtain ⟨rfl, hs⟩ := List.append_inj' heq rfl
    obtain rfl := TrieCall.unsubscribe.inj (List.cons.inj hs).1
    exact hlt
  · rw [List.concat_eq_append, ← List.cons_append, ← List.append_assoc] at heq
    exact h before after' s' (List.append_inj' heq rfl).1

theorem filters_shrinking :
    Filters shrinking [97, 98, 99, 120] (bytesAt [97, 98, 99, 120]) := by
  refine filters_of_keepsCounts _ _ _ ?_ (by decide) (by decide) (LiesAt.bytesAt _) ?_ ?_
  · have hgrowing : Balanced growing := balanced_of_subscribes fun call hcall => by
      simp only [growing, List.map_cons, List.map_nil, List.cons_append, List.nil_append,
        List.mem_cons, List.not_mem_nil, or_false] at hcall
      rcases hcall with rfl | rfl | rfl | rfl | rfl | rfl | rfl | rfl | rfl | rfl | rfl | rfl <;>
        exact ⟨_, rfl⟩
    exact (hgrowing.unsubscribe (by decide)).unsubscribe (by decide)
  · have hall : allCalls (fun root call => (callDrops root call).isNone) trieInit shrinking =
        true := by decide +kernel
    intro before call after root heq hrun
    exact Option.isNone_iff_eq_none.mp (allCalls_spec hall before call after root heq hrun)
  · have hinside : (runCalls trieInit shrinking).map (endsInside · [97, 98, 99, 120]) =
        .ok false := by decide +kernel
    intro root hrun
    rw [hrun] at hinside
    exact Except.ok.inj hinside

/-- What a run answers for one message. -/
def runMatch (calls : List TrieCall) (data : Nat → UInt8) (size : Nat) : Except Fault Nat :=
  (runCalls trieInit calls).map fun root => trieMatch root data size

theorem filters_iff_of_runMatch {calls : List TrieCall} {d : List UInt8}
    {data : Nat → UInt8} {rc : Nat} (h : runMatch calls data d.length = .ok rc) :
    Filters calls d data ↔ (rc = 1 ↔ ∃ s, 0 < inForce calls s ∧ s <+: d) := by
  unfold runMatch at h
  unfold Filters
  cases hrun : runCalls trieInit calls with
  | error e => simp [hrun, Except.map] at h
  | ok root =>
      simp only [hrun, Except.map, Except.ok.injEq] at h
      simp [h]

/-- Subscriptions to the empty string and to nine strings that differ in their
first byte. -/
def ninthChild : List TrieCall :=
  .subscribe [] :: [97, 98, 99, 100, 101, 102, 103, 104, 105].map fun c => .subscribe [c]

/-- Subscriptions to two strings that part after their first byte. -/
def twoBranches : List TrieCall := [.subscribe [97, 98], .subscribe [97, 99]]

/-- The ninth child of the root loses the subscription to the empty string, and a
message that is the first byte of two subscriptions is matched with a byte behind
its end. -/
theorem not_filters :
    (Balanced ninthChild ∧ subscribes ninthChild < uint32Size ∧
      LiesAt (bytesAt [122]) [122] ∧ ¬ Filters ninthChild [122] (bytesAt [122])) ∧
    (Balanced twoBranches ∧ subscribes twoBranches < uint32Size ∧
      LiesAt (bytesAt [97, 98]) [97] ∧ ¬ Filters twoBranches [97] (bytesAt [97, 98])) := by
  refine ⟨⟨?_, by decide, LiesAt.bytesAt _, ?_⟩, ⟨?_, by decide, ?_, ?_⟩⟩
  · exact balanced_of_subscribes (by simp [ninthChild])
  · have hrun : runMatch ninthChild (bytesAt [122]) ([122] : List UInt8).length = .ok 0 := by
      decide +kernel
    rw [filters_iff_of_runMatch hrun]
    intro h
    have hempty : 0 < inForce ninthChild [] := by decide
    exact absurd (h.mpr ⟨[], hempty, List.nil_prefix⟩) (by decide)
  · exact balanced_of_subscribes (by simp [twoBranches])
  · intro i hi
    obtain rfl : i = 0 := by simpa using hi
    rfl
  · have hrun : runMatch twoBranches (bytesAt [97, 98]) ([97] : List UInt8).length = .ok 1 := by
      decide +kernel
    rw [filters_iff_of_runMatch hrun]
    intro h
    obtain ⟨s, hpos, hs⟩ := h.mp rfl
    rcases List.prefix_cons_iff.mp hs with rfl | ⟨t, rfl, ht⟩
    · exact absurd hpos (by decide)
    · obtain rfl : t = [] := by simpa using ht
      exact absurd hpos (by decide)

end GridMq.PubSub
