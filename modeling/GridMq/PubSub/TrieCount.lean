import GridMq.PubSub.Trie
import Mathlib.Data.List.Nodup
import Mathlib.Data.List.Infix

set_option autoImplicit false

/-!
# What a subscription trie stores

`count n s` is the reference count at the exact node of the string `s`, the only
thing about a trie that its users can see.  `TrieNode.WF` is the representation
invariant.  Both speak about children through `kid`, the child reached by a
byte, so that the proofs about subscribing and unsubscribing need to know only
what each rearrangement of the pointer array does to `kid`.
-/

namespace GridMq.PubSub

/-- The child that `grid_node_next` leads to; NULL when there is none. -/
def kid (u : NodeLayout) (child : Nat → TrieNode) (c : UInt8) : TrieNode :=
  match nodeNext u c with
  | none => .null
  | some i => child i

/-- The reference count stored at the exact node of a string. -/
def count : TrieNode → List UInt8 → Nat
  | .null, _ => 0
  | .node refcount pfx u child, s =>
      if pfx <+: s then
        match s.drop pfx.length with
        | [] => refcount
        | c :: rest =>
            match nodeNext u c with
            | none => 0
            | some i => count (child i) rest
      else 0

/-- What a node stores for the rest of a string, its prefix being consumed. -/
def below (refcount : Nat) (next : UInt8 → TrieNode) : List UInt8 → Nat
  | [] => refcount
  | c :: rest => count (next c) rest

@[simp] theorem count_null (s : List UInt8) : count .null s = 0 := by
  simp [count]

theorem count_off_path {refcount : Nat} {pfx s : List UInt8} {u : NodeLayout}
    {child : Nat → TrieNode} (h : ¬ pfx <+: s) :
    count (.node refcount pfx u child) s = 0 := by
  simp [count, h]

@[simp] theorem count_append (refcount : Nat) (pfx t : List UInt8) (u : NodeLayout)
    (child : Nat → TrieNode) :
    count (.node refcount pfx u child) (pfx ++ t) = below refcount (kid u child) t := by
  cases t with
  | nil => simp [count, below]
  | cons c rest =>
      simp only [count, List.prefix_append, if_true, List.drop_left, below, kid]
      cases nodeNext u c with
      | none => simp
      | some i => rfl

@[simp] theorem count_self (refcount : Nat) (pfx : List UInt8) (u : NodeLayout)
    (child : Nat → TrieNode) : count (.node refcount pfx u child) pfx = refcount := by
  have := count_append refcount pfx [] u child
  simpa only [List.append_nil, below] using this

theorem isNull_iff {n : TrieNode} : n.isNull = true ↔ n = .null := by
  cases n <;> simp [TrieNode.isNull]

theorem isNull_eq_false_iff {n : TrieNode} : n.isNull = false ↔ n ≠ .null := by
  cases n <;> simp [TrieNode.isNull]

/-! ## The representation invariant -/

/-- The part of the invariant that concerns the pointer array. -/
def NodeLayout.WF (u : NodeLayout) (child : Nat → TrieNode) : Prop :=
  match u with
  | .sparse children =>
      children.Nodup ∧ children.length ≤ trieSparseMax ∧
        ∀ i, i < children.length → (child i).isNull = false
  | .dense min max nbr =>
      min ≤ max ∧ max < 256 ∧ (child 0).isNull = false ∧ (child (max - min)).isNull = false ∧
        nbr = (presentSlots child (max - min + 1)).length ∧ trieSparseMax < nbr

/-- The representation invariant of a trie below a pointer. -/
def TrieNode.WF : TrieNode → Prop
  | .null => True
  | .node refcount pfx u child =>
      pfx.length ≤ triePrefixMax ∧ u.WF child ∧ (u.type = 0 → 0 < refcount) ∧
        ∀ i, i < u.slots → (child i).WF

/-! ## Checking a prefix -/

theorem bytesAt_cons (b : UInt8) (data : List UInt8) :
    (fun i => bytesAt (b :: data) (i + 1)) = bytesAt data := by
  funext i
  simp [bytesAt]

/-- The prefix check on a byte string splits it and the prefix at the first
difference. -/
theorem nodeCheckPrefix_split (pfx data : List UInt8) :
    (nodeCheckPrefix pfx (bytesAt data) data.length = pfx.length ∧ pfx <+: data) ∨
    ∃ q b tail t, pfx = q ++ b :: tail ∧ data = q ++ t ∧ t.head? ≠ some b ∧
      nodeCheckPrefix pfx (bytesAt data) data.length = q.length := by
  induction pfx generalizing data with
  | nil => exact Or.inl ⟨rfl, List.nil_prefix⟩
  | cons b pfx ih =>
      cases data with
      | nil =>
          refine Or.inr ⟨[], b, pfx, [], rfl, rfl, by simp, ?_⟩
          simp [nodeCheckPrefix]
      | cons d data =>
          by_cases hd : b = d
          · subst d
            have hstep : nodeCheckPrefix (b :: pfx) (bytesAt (b :: data)) (b :: data).length =
                nodeCheckPrefix pfx (bytesAt data) data.length + 1 := by
              rw [nodeCheckPrefix, bytesAt_cons]
              simp [bytesAt]
            rw [hstep]
            rcases ih data with ⟨heq, hpre⟩ | ⟨q, b', tail, t, hp, hdata, ht, hpos⟩
            · exact Or.inl ⟨by simp [heq], List.cons_prefix_cons.mpr ⟨rfl, hpre⟩⟩
            · exact Or.inr ⟨b :: q, b', tail, t, by simp [hp], by simp [hdata], ht,
                by simp [hpos]⟩
          · refine Or.inr ⟨[], b, pfx, d :: data, rfl, rfl, ?_, ?_⟩
            · simpa using fun h => hd h.symm
            · rw [nodeCheckPrefix, if_pos]
              · rfl
              · exact Or.inr (by simpa [bytesAt] using hd)

theorem nodeCheckPrefix_eq_length_iff (pfx data : List UInt8) :
    nodeCheckPrefix pfx (bytesAt data) data.length = pfx.length ↔ pfx <+: data := by
  rcases nodeCheckPrefix_split pfx data with ⟨heq, hpre⟩ | ⟨q, b, tail, t, hp, hd, ht, hpos⟩
  · exact ⟨fun _ => hpre, fun _ => heq⟩
  · constructor
    · intro h
      rw [hpos, hp] at h
      simp at h
    · intro hpre
      rw [hp, hd, List.prefix_append_right_inj] at hpre
      obtain ⟨t', rfl⟩ := hpre
      simp at ht

/-! ## Children by byte -/

/-- Different bytes never share a slot. -/
theorem nodeNext_inj {u : NodeLayout} {c c' : UInt8} {i : Nat}
    (h : nodeNext u c = some i) (h' : nodeNext u c' = some i) : c = c' := by
  cases u with
  | sparse children =>
      simp only [nodeNext, List.findIdx?_eq_some_iff_getElem] at h h'
      obtain ⟨hi, hc, -⟩ := h
      obtain ⟨hi', hc', -⟩ := h'
      simp only [beq_iff_eq] at hc hc'
      rw [← hc, ← hc']
  | dense min max nbr =>
      simp only [nodeNext] at h h'
      split at h
      · simp at h
      · split at h'
        · simp at h'
        · simp only [Option.some.injEq] at h h'
          exact UInt8.toNat_inj.mp (by omega)

/-- The slot of a child lies inside the pointer array. -/
theorem nodeNext_lt_slots {u : NodeLayout} {c : UInt8} {i : Nat}
    (h : nodeNext u c = some i) : i < u.slots := by
  cases u with
  | sparse children =>
      simp only [nodeNext, List.findIdx?_eq_some_iff_getElem] at h
      exact h.1
  | dense min max nbr =>
      simp only [nodeNext] at h
      split at h
      · simp at h
      · simp only [Option.some.injEq] at h
        simp only [NodeLayout.slots]
        omega

@[simp] theorem kid_nil (child : Nat → TrieNode) (c : UInt8) :
    kid (.sparse []) child c = .null := by
  simp [kid, nodeNext]

/-- The children of a well-formed node are well formed, whichever byte leads to
them. -/
theorem kid_wf {u : NodeLayout} {child : Nat → TrieNode}
    (h : ∀ i, i < u.slots → (child i).WF) (c : UInt8) : (kid u child c).WF := by
  unfold kid
  cases hc : nodeNext u c with
  | none => trivial
  | some i => exact h i (nodeNext_lt_slots hc)

/-- Replacing the child in the slot of `c` is seen by `c` alone. -/
theorem kid_setChild {u : NodeLayout} {child : Nat → TrieNode} {c : UInt8} {i : Nat}
    (h : nodeNext u c = some i) (ch : TrieNode) (c' : UInt8) :
    kid u (setChild child i ch) c' = if c' = c then ch else kid u child c' := by
  unfold kid
  by_cases hc : c' = c
  · subst c'
    simp [h, setChild]
  · rw [if_neg hc]
    cases h' : nodeNext u c' with
    | none => rfl
    | some j =>
        have hj : j ≠ i := fun hj => hc (nodeNext_inj (by rw [h', hj]) h)
        simp [setChild, hj]

theorem setChild_same (child : Nat → TrieNode) (i : Nat) (ch : TrieNode) :
    setChild child i ch i = ch := by
  simp [setChild]

theorem setChild_ne {child : Nat → TrieNode} {i j : Nat} {ch : TrieNode} (h : j ≠ i) :
    setChild child i ch j = child j := by
  simp [setChild, h]

end GridMq.PubSub
