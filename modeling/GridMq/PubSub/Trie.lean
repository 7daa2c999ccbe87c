import Mathlib.Algebra.Group.Nat.Defs
import Mathlib.Data.List.Basic

set_option autoImplicit false

/-!
# The subscription trie (`src/protocols/pubsub/trie.c`)

A SUB socket keeps its subscriptions in a patricia trie.  A node is a header
(reference count, up to ten prefix bytes and the union `u`) followed in memory
by an array of child pointers; here the array is a function from its index, and
`TrieNode.null` is the NULL pointer.  Up to eight children are told apart by the
byte array `u.sparse.children`; with more of them the pointer array is indexed
by the byte itself, starting from `u.dense.min`.

Allocation is taken to succeed.  What ends the process otherwise is an explicit
`Fault`: an `assert` that fails, or a NULL pointer that is followed.
-/

namespace GridMq.PubSub

/-- `GRID_TRIE_PREFIX_MAX`. -/
def triePrefixMax : Nat := 10

/-- `GRID_TRIE_SPARSE_MAX`. -/
def trieSparseMax : Nat := 8

/-- `GRID_TRIE_DENSE_TYPE`. -/
def trieDenseType : Nat := trieSparseMax + 1

/-- The values of a `uint32_t` reference count and of a `size_t` length. -/
def uint32Size : Nat := 2 ^ 32
def sizeTSize : Nat := 2 ^ 64

/-- Why a trie operation does not return. -/
inductive Fault where
  /-- `assert (!*node)` at step 4 of a subscription -/
  | slotInUse
  /-- `assert (index != (*self)->type)`: the removed child is not listed -/
  | childNotListed
  /-- `assert (j == GRID_TRIE_SPARSE_MAX)` when a dense array turns sparse -/
  | sparseCount
  /-- a NULL node is followed -/
  | nullNode
  deriving DecidableEq, Repr

/-- The union `u` of a node, tagged by its `type`. -/
inductive NodeLayout where
  /-- the child bytes in use, in array order; `type` is their number -/
  | sparse (children : List UInt8)
  /-- the byte range covered by the pointer array, and the child count -/
  | dense (min max nbr : Nat)
  deriving DecidableEq, Repr

/-- `struct grid_trie_node *`. -/
inductive TrieNode where
  | null
  | node (refcount : Nat) (pfx : List UInt8) (u : NodeLayout) (child : Nat → TrieNode)

namespace NodeLayout

/-- The `type` field. -/
def type : NodeLayout → Nat
  | .sparse children => children.length
  | .dense _ _ _ => trieDenseType

/-- The length of the pointer array that follows the header. -/
def slots : NodeLayout → Nat
  | .sparse children => children.length
  | .dense min max _ => max - min + 1

end NodeLayout

namespace TrieNode

def isNull : TrieNode → Bool
  | .null => true
  | .node .. => false

end TrieNode

/-- `*grid_node_child (self, index) = ch`. -/
def setChild (child : Nat → TrieNode) (index : Nat) (ch : TrieNode) : Nat → TrieNode :=
  fun i => if i = index then ch else child i

/-- `grid_node_has_subscribers`. -/
def nodeHasSubscribers (refcount : Nat) : Bool := refcount != 0

/-- `grid_node_check_prefix`: how many bytes of the prefix match the data.  The
data is memory from the pointer on, of which `size` bytes belong to the caller. -/
def nodeCheckPrefix : List UInt8 → (Nat → UInt8) → Nat → Nat
  | [], _, _ => 0
  | b :: pfx, data, size =>
      if size = 0 ∨ b ≠ data 0 then 0
      else nodeCheckPrefix pfx (fun i => data (i + 1)) (size - 1) + 1

/-- A byte string in memory; what follows it is not looked at by the callers. -/
def bytesAt (data : List UInt8) : Nat → UInt8 := fun i => data.getD i 0

/-- `grid_node_next`: the index of the child reached by `c`, if it has a slot. -/
def nodeNext (u : NodeLayout) (c : UInt8) : Option Nat :=
  match u with
  | .sparse children => children.findIdx? (· == c)
  | .dense min max _ =>
      if c.toNat < min ∨ c.toNat > max then none else some (c.toNat - min)

/-- `grid_node_compact`: merge a node with its only child when it holds no
subscription and the joined prefixes fit. -/
def nodeCompact (refcount : Nat) (pfx : List UInt8) (u : NodeLayout)
    (child : Nat → TrieNode) : Except Fault TrieNode :=
  if nodeHasSubscribers refcount then .ok (.node refcount pfx u child)
  else
    match u with
    | .sparse [c] =>
        match child 0 with
        | .null => .error .nullNode
        | .node r p u' child' =>
            if pfx.length + p.length + 1 > triePrefixMax then
              .ok (.node refcount pfx u child)
            else .ok (.node r (pfx ++ c :: p) u' child')
    | _ => .ok (.node refcount pfx u child)

/-! ## Subscribing -/

/-- Step 5: count the subscription; 1 is returned for a fresh one. -/
def step5 (refcount : Nat) (pfx : List UInt8) (u : NodeLayout)
    (child : Nat → TrieNode) : TrieNode × Nat :=
  let refcount := (refcount + 1) % uint32Size
  (.node refcount pfx u child, if refcount = 1 then 1 else 0)

/-- Step 4, with `pfx` already copied into the node being filled: nodes for the
rest of the subscription, ten prefix bytes and a child byte each, the last of
which takes the count. -/
def step4From (pfx : List UInt8) : List UInt8 → TrieNode × Nat
  | [] => step5 0 pfx (.sparse []) fun _ => .null
  | c :: rest =>
      if pfx.length < triePrefixMax then step4From (pfx ++ [c]) rest
      else
        let r := step4From [] rest
        (.node 0 pfx (.sparse [c]) (setChild (fun _ => .null) 0 r.1), r.2)

/-- Step 4: new nodes for the remaining part of the subscription. -/
def step4 (data : List UInt8) : TrieNode × Nat := step4From [] data

/-- The range of a new dense array: the sparse children and the new byte. -/
def denseRange (children : List UInt8) (c : UInt8) : Nat × Nat :=
  let r := children.foldl
    (fun m c2 => (min m.1 c2.toNat, max m.2 c2.toNat)) (255, 0)
  (min r.1 c.toNat, max r.2 c.toNat)

/-- The sparse children copied into a zeroed dense array. -/
def denseFill (newMin : Nat) : List UInt8 → (Nat → TrieNode) → Nat → TrieNode
  | [], _ => fun _ => .null
  | c :: children, child =>
      setChild (denseFill newMin children fun i => child (i + 1)) (c.toNat - newMin) (child 0)

/-- A dense array moved up by the slots inserted before it, the new slots zeroed. -/
def denseWiden (min max newMin : Nat) (child : Nat → TrieNode) : Nat → TrieNode :=
  let inserted := min - newMin
  let oldChildren := max - min + 1
  fun i =>
    if i < inserted then .null
    else if i < inserted + oldChildren then child (i - inserted)
    else .null

/-- Step 3: make a slot for the child `c`, then build the chain below it.  The
header of the converted node is written afresh, its reference count as 0. -/
def step3 (refcount : Nat) (pfx : List UInt8) (u : NodeLayout) (child : Nat → TrieNode)
    (c : UInt8) (rest : List UInt8) : Except Fault (TrieNode × Nat) :=
  let r := step4 rest
  match u with
  | .sparse children =>
      if children.length < trieSparseMax then
        .ok (.node refcount pfx (.sparse (children ++ [c]))
          (setChild child children.length r.1), r.2)
      else
        let range := denseRange children c
        let filled := denseFill range.1 children child
        if (filled (c.toNat - range.1)).isNull then
          .ok (.node 0 pfx (.dense range.1 range.2 (children.length + 1))
            (setChild filled (c.toNat - range.1) r.1), r.2)
        else .error .slotInUse
  | .dense min max nbr =>
      let newMin := if min < c.toNat then min else c.toNat
      let newMax := if max > c.toNat then max else c.toNat
      let child :=
        if c.toNat < min ∨ c.toNat > max then denseWiden min max newMin child else child
      if (child (c.toNat - newMin)).isNull then
        .ok (.node refcount pfx (.dense newMin newMax (nbr + 1))
          (setChild child (c.toNat - newMin) r.1), r.2)
      else .error .slotInUse

/-- Step 2: split the prefix after `pos` bytes; the old node keeps the tail of
its prefix and is compacted. -/
def step2 (refcount : Nat) (pfx : List UInt8) (u : NodeLayout) (child : Nat → TrieNode)
    (pos : Nat) (data : List UInt8) : Except Fault (TrieNode × Nat) :=
  match pfx.drop pos with
  | [] => .error .nullNode
  | b :: tail => do
      let ch ← nodeCompact refcount tail u child
      let split := setChild (fun _ => .null) 0 ch
      match data with
      | [] => return step5 0 (pfx.take pos) (.sparse [b]) split
      | c :: rest => step3 0 (pfx.take pos) (.sparse [b]) split c rest

/-- `grid_trie_subscribe` from the node reached so far: the node after the call
and the return value. -/
def trieSubscribe : TrieNode → List UInt8 → Except Fault (TrieNode × Nat)
  | .null, data => .ok (step4 data)
  | .node refcount pfx u child, data =>
      let pos := nodeCheckPrefix pfx (bytesAt data) data.length
      if pos < pfx.length then step2 refcount pfx u child pos (data.drop pos)
      else
        match data.drop pos with
        | [] => .ok (step5 refcount pfx u child)
        | c :: rest =>
            match nodeNext u c with
            | none => step3 refcount pfx u child c rest
            | some i =>
                if (child i).isNull then step3 refcount pfx u child c rest
                else do
                  let r ← trieSubscribe (child i) rest
                  return (.node refcount pfx u (setChild child i r.1), r.2)

/-! ## Matching -/

/-- `grid_trie_match` from `node`.  The byte after the prefix is fetched without
looking at `size`, and `size` is decremented modulo the width of `size_t`. -/
def trieMatch : TrieNode → (Nat → UInt8) → Nat → Nat
  | .null, _, _ => 0
  | .node refcount pfx u child, data, size =>
      if nodeCheckPrefix pfx data size ≠ pfx.length then 0
      else if nodeHasSubscribers refcount then 1
      else
        match nodeNext u (data pfx.length) with
        | none => 0
        | some i =>
            trieMatch (child i) (fun j => data (pfx.length + 1 + j))
              ((size - pfx.length + (sizeTSize - 1)) % sizeTSize)

/-! ## Unsubscribing -/

/-- The `found` label: the string ends at this node.  `none` is `-EINVAL`. -/
def unsubscribeFound : TrieNode → Except Fault (TrieNode × Option Nat)
  | .null => .ok (.null, none)
  | .node refcount pfx u child =>
      if nodeHasSubscribers refcount then
        if refcount - 1 = 0 then
          if u.type = 0 then .ok (.null, some 1)
          else do
            let self ← nodeCompact 0 pfx u child
            return (self, some 1)
        else .ok (.node (refcount - 1) pfx u child, some 0)
      else .ok (.node refcount pfx u child, none)

/-- The slots of a pointer array of length `n` that hold a child. -/
def presentSlots (child : Nat → TrieNode) (n : Nat) : List Nat :=
  (List.range n).filter fun i => !(child i).isNull

/-- The child reached by `c` is gone: close the gap it leaves.  A dense array
that turns sparse is copied into a new node, whose reference count is set to 0. -/
def unsubscribePrune (refcount : Nat) (pfx : List UInt8) (u : NodeLayout)
    (child : Nat → TrieNode) (c : UInt8) : Except Fault TrieNode :=
  match u with
  | .sparse children =>
      match children.findIdx? (· == c) with
      | none => .error .childNotListed
      | some index =>
          let children' := children.eraseIdx index
          let child' := fun i => if i < index then child i else child (i + 1)
          if children' = [] ∧ ¬ nodeHasSubscribers refcount then .ok .null
          else nodeCompact refcount pfx (.sparse children') child'
  | .dense min max nbr =>
      if nbr > trieSparseMax + 1 then
        if c.toNat = min then
          let i := ((List.range (max - min + 1)).find? fun i => !(child i).isNull).getD
            (max - min + 1)
          .ok (.node refcount pfx (.dense (i + min) max (nbr - 1)) fun j => child (j + i))
        else if c.toNat = max then
          let i := ((List.range (max - min + 1)).reverse.find? fun i =>
            i == 0 || !(child i).isNull).getD 0
          .ok (.node refcount pfx (.dense min (i + min) (nbr - 1)) child)
        else .ok (.node refcount pfx (.dense min max (nbr - 1)) child)
      else
        let present := presentSlots child (max - min + 1)
        if present.length = trieSparseMax then
          .ok (.node 0 pfx (.sparse (present.map fun i => UInt8.ofNat (i + min)))
            fun j => (present[j]?.map child).getD .null)
        else .error .sparseCount

/-- `grid_node_unsubscribe`: the node after the call and the return value.  The
length is looked at before the prefix of the node is. -/
def nodeUnsubscribe : TrieNode → List UInt8 → Except Fault (TrieNode × Option Nat)
  | self, [] => unsubscribeFound self
  | .null, _ :: _ => .error .nullNode
  | .node refcount pfx u child, b :: data =>
      if nodeCheckPrefix pfx (bytesAt (b :: data)) (b :: data).length ≠ pfx.length then
        .ok (.node refcount pfx u child, some 0)
      else
        match (b :: data).drop pfx.length with
        | [] => unsubscribeFound (.node refcount pfx u child)
        | c :: rest =>
            match nodeNext u c with
            | none => .ok (.node refcount pfx u child, some 0)
            | some i => do
                let r ← nodeUnsubscribe (child i) rest
                let self := TrieNode.node refcount pfx u (setChild child i r.1)
                if r.2 = some 0 then return (self, some 0)
                else if r.1.isNull then do
                  let self ← unsubscribePrune refcount pfx u (setChild child i r.1) c
                  return (self, some 1)
                else return (self, some 1)

/-- `grid_trie_unsubscribe`. -/
def trieUnsubscribe (root : TrieNode) (data : List UInt8) :
    Except Fault (TrieNode × Option Nat) :=
  nodeUnsubscribe root data

/-- `grid_trie_init`. -/
def trieInit : TrieNode := .null

end GridMq.PubSub
