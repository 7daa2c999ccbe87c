import GridMq.Protocols.Receiver
import GridMq.PubSub.TrieRuns

set_option autoImplicit false

/-!
# The SUB socket (`src/protocols/pubsub/xsub.c`)

The cooked SUB socket is the raw one.  Messages are received through a fair queue, and those
that the trie does not match are dropped on the way to the user.
-/

namespace GridMq.PubSub

open GridMq.Core GridMq.Library GridMq.Protocols

/-- `struct grid_xsub`, with the pipes attached to it. -/
structure Xsub where
  receiver : Receiver := {}
  trie : TrieNode := trieInit

/-- How a call on the trie ends the process. -/
def Fault.abort : Fault → Abort
  | .nullNode => .nullPointer
  | _ => .assertion

/-- A message in memory, with what lies behind it there. -/
def inMemory (wire : List UInt8) (behind : Nat → UInt8) : Nat → UInt8 :=
  fun i => if i < wire.length then bytesAt wire i else behind (i - wire.length)

theorem liesAt_inMemory (wire : List UInt8) (behind : Nat → UInt8) :
    LiesAt (inMemory wire behind) wire := by
  intro i hi
  exact if_pos hi

namespace Xsub

/-- The messages that a receive takes from the pipes: those that it drops, and the one that it
hands to the user, or `-EAGAIN`. -/
structure Screened where
  dropped : List (Nat × List UInt8) := []
  handed : Option (Nat × List UInt8) := none
  deriving DecidableEq

/-- All of them, in the order in which they were taken. -/
def Screened.taken (r : Screened) : List (Nat × List UInt8) := r.dropped ++ r.handed.toList

/-- The loop of `grid_xsub_recv`, in which every turn takes a message.  The bound is never
reached.  `behind` is what lies in memory behind the messages, one after the other. -/
def recvLoop (trie : TrieNode) :
    Nat → (Nat → Nat → UInt8) → Receiver → Except Abort (Receiver × Screened)
  | 0, _, _ => .error .assertion
  | n + 1, behind, self => do
      let r ← self.recv
      match r.2 with
      | none => return (r.1, {})
      | some e =>
          let rc := trieMatch trie (inMemory e.2 (behind 0)) e.2.length
          if rc = 0 then
            let r ← recvLoop trie n (fun i => behind (i + 1)) r.1
            return (r.1, { r.2 with dropped := e :: r.2.dropped })
          else if rc = 1 then return (r.1, { handed := some e })
          else .error .errnum

/-- `grid_xsub_recv`. -/
def recv (self : Xsub) (behind : Nat → Nat → UInt8) : Except Abort (Xsub × Screened) := do
  let r ← recvLoop self.trie (self.receiver.unread + 1) behind self.receiver
  return ({ self with receiver := r.1 }, r.2)

/-- `grid_xsub_setopt` of `GRID_SUB_SUBSCRIBE` and `GRID_SUB_UNSUBSCRIBE`. -/
def setopt (self : Xsub) (call : TrieCall) : Except Abort Xsub :=
  match trieCall self.trie call with
  | .ok trie => .ok { self with trie := trie }
  | .error fault => .error fault.abort

/-- What happens to a SUB socket. -/
inductive Op where
  | pipe (op : PipeOp)
  | setopt (call : TrieCall)
  | recv (behind : Nat → Nat → UInt8)

def Enabled (mine : Nat → Bool) (self : Xsub) : Op → Prop
  | .pipe op => self.receiver.pipes.Enabled mine op
  | .setopt _ => True
  | .recv _ => True

instance (mine : Nat → Bool) (self : Xsub) (op : Op) : Decidable (self.Enabled mine op) := by
  cases op <;> unfold Enabled <;> infer_instance

/-- A check for `Enabled`. -/
def ready (mine : Nat → Bool) (s : Xsub) (op : Op) : Bool := decide (s.Enabled mine op)

theorem enabled_of_ready {mine : Nat → Bool} {s : Xsub} {op : Op} (h : ready mine s op = true) :
    s.Enabled mine op := of_decide_eq_true h

/-- One step, with the messages that the user's receive took. -/
def next (self : Xsub) : Op → Except Abort (Xsub × Screened)
  | .pipe op => do
      let receiver ← self.receiver.nextPipe op
      return ({ self with receiver := receiver }, {})
  | .setopt call => do
      let self ← self.setopt call
      return (self, {})
  | .recv behind => self.recv behind

/-- A step as it is seen from outside. -/
abbrev Label := Op × Screened

/-- A SUB socket from its creation on. -/
def machine (mine : Nat → Bool) : Machine Xsub Op Screened Abort where
  init := {}
  Enabled := Enabled mine
  next := next

/-- What arrives in a step. -/
def arrival : Label → Option (Nat × List UInt8)
  | (.pipe op, _) => op.arrival
  | _ => none

/-- What a step takes from the pipes. -/
def taken : Label → List (Nat × List UInt8)
  | (.recv _, r) => r.taken
  | _ => []

/-- What the user receives in a step. -/
def handed : Label → Option (Nat × List UInt8)
  | (.recv _, r) => r.handed
  | _ => none

/-- The subscription that a step makes or ends. -/
def call : Label → Option TrieCall
  | (.setopt call, _) => some call
  | _ => none

/-! ## Receiving -/

theorem trieMatch_le (n : TrieNode) :
    ∀ (data : Nat → UInt8) (size : Nat), trieMatch n data size ≤ 1 := by
  induction n with
  | null =>
      intro data size
      exact Nat.zero_le 1
  | node refcount pfx u child ih =>
      intro data size
      rw [trieMatch]
      split
      · exact Nat.zero_le 1
      · split
        · exact Nat.le_refl 1
        · split
          · exact Nat.zero_le 1
          · exact ih _ _ _

/-- The trie matches a message, with some memory behind it. -/
def Passes (trie : TrieNode) (rc : Nat) (wire : List UInt8) : Prop :=
  ∃ behind, trieMatch trie (inMemory wire behind) wire.length = rc

/-- Messages are dropped until one is matched or none is left. -/
structure Screens (trie : TrieNode) (s s' : Receiver) (r : Screened) : Prop where
  inv : s'.Inv
  dropped : ∀ e ∈ r.dropped, Passes trie 0 e.2
  handed : ∀ e, r.handed = some e → Passes trie 1 e.2
  empty : r.handed = none → s'.events = false
  received : ∀ mine came went, Received mine came went s.pipes →
    Received mine came (went ++ r.taken) s'.pipes

theorem recvLoop_spec (trie : TrieNode) (n : Nat) :
    ∀ (behind : Nat → Nat → UInt8) {s : Receiver}, s.Inv → s.unread < n →
      ∃ s' r, recvLoop trie n behind s = .ok (s', r) ∧ Screens trie s s' r := by
  induction n with
  | zero =>
      intro behind s _ hlt
      exact absurd hlt (Nat.not_lt_zero _)
  | succ n ih =>
      intro behind s h hlt
      rcases h.recv with ⟨hcall, hoff⟩ | ⟨s₁, p, wire, hcall, -, hinv, hless, hreceived⟩
      · refine ⟨s, {}, ?_, h, by simp, by simp, fun _ => hoff, ?_⟩
        · simp only [recvLoop, hcall, ok_bind, pure_eq_ok]
        · intro mine came went hr
          exact (List.append_nil went).symm ▸ hr
      · have hle := trieMatch_le trie (inMemory wire (behind 0)) wire.length
        rcases Nat.le_one_iff_eq_zero_or_eq_one.mp hle with hrc | hrc
        · obtain ⟨s', r, hloop, hs⟩ := ih (fun i => behind (i + 1)) hinv (by omega)
          refine ⟨s', { r with dropped := (p, wire) :: r.dropped }, ?_, hs.inv, ?_, hs.handed,
            hs.empty, ?_⟩
          · simp only [recvLoop, hcall, ok_bind, hrc, if_true, hloop, pure_eq_ok]
          · intro e he
            rcases List.mem_cons.mp he with rfl | he
            · exact ⟨behind 0, hrc⟩
            · exact hs.dropped e he
          · intro mine came went hr
            have hrest := hs.received mine came _ (hreceived mine came went hr)
            rw [List.append_assoc] at hrest
            exact hrest
        · refine ⟨s₁, { handed := some (p, wire) }, ?_, hinv, by simp, ?_, by simp, ?_⟩
          · simp only [recvLoop, hcall, ok_bind, hrc, one_ne_zero, if_false, if_true, pure_eq_ok]
          · intro e he
            obtain rfl := Option.some.inj he
            exact ⟨behind 0, hrc⟩
          · intro mine came went hr
            exact hreceived mine came went hr

variable {mine : Nat → Bool} {s s' : Xsub}

/-- Receiving comes to an end, and no assertion fails. -/
theorem recv_spec (h : s.receiver.Inv) (behind : Nat → Nat → UInt8) :
    ∃ s' r, s.recv behind = .ok (s', r) ∧ s'.trie = s.trie ∧
      Screens s.trie s.receiver s'.receiver r := by
  obtain ⟨s₁, r, hloop, hs⟩ :=
    recvLoop_spec s.trie (s.receiver.unread + 1) behind h (Nat.lt_succ_self _)
  refine ⟨{ s with receiver := s₁ }, r, ?_, rfl, hs⟩
  simp only [recv, hloop, ok_bind, pure_eq_ok]

/-! ## Runs -/

/-- What a step does to the pipes and the trie. -/
structure Sound (mine : Nat → Bool) (s s' : Xsub) (l : Label) : Prop where
  inv : s'.receiver.Inv
  received : ∀ came went, Received mine came went s.receiver.pipes →
    Received mine (came ++ (arrival l).toList) (went ++ taken l) s'.receiver.pipes
  trie : runCalls s.trie (call l).toList = .ok s'.trie

/-- A step that is not about the subscriptions is taken, whatever the state. -/
theorem goes_on (h : s.receiver.Inv) {op : Op} (hen : s.Enabled mine op)
    (hop : ∀ call, op ≠ .setopt call) : ∃ s' r, s.next op = .ok (s', r) := by
  cases op with
  | pipe op =>
      obtain ⟨receiver, hcall, -⟩ := h.pipe hen
      refine ⟨{ s with receiver := receiver }, {}, ?_⟩
      simp only [next, hcall, ok_bind, pure_eq_ok]
  | setopt call => exact absurd rfl (hop call)
  | recv behind =>
      obtain ⟨s', r, hcall, -⟩ := recv_spec h behind
      exact ⟨s', r, hcall⟩

/-- The steps that are taken are sound. -/
theorem sound (h : s.receiver.Inv) {l : Label} (hstep : (machine mine).system.step s l s') :
    Sound mine s s' l := by
  obtain ⟨hen, hcall⟩ := hstep
  obtain ⟨op, r⟩ := l
  cases op with
  | pipe op =>
      obtain ⟨receiver, hpipe, hinv, hreceived⟩ := h.pipe hen
      have hnext : s.next (.pipe op) = .ok ({ s with receiver := receiver }, {}) := by
        simp only [next, hpipe, ok_bind, pure_eq_ok]
      obtain ⟨rfl, rfl⟩ := Prod.mk.inj (Except.ok.inj (hnext.symm.trans hcall))
      refine ⟨hinv, ?_, rfl⟩
      intro came went hr
      exact (List.append_nil went).symm ▸ hreceived came went hr
  | setopt c =>
      obtain ⟨s₁, hset, hret⟩ := bind_eq_ok_iff.mp hcall
      obtain ⟨rfl, rfl⟩ := Prod.mk.inj (Except.ok.inj hret)
      unfold setopt at hset
      split at hset
      · rename_i trie htrie
        obtain rfl := Except.ok.inj hset
        refine ⟨h, ?_, ?_⟩
        · intro came went hr
          exact (List.append_nil came).symm ▸ (List.append_nil went).symm ▸ hr
        · change runCalls s.trie [c] = _
          simp only [runCalls, List.foldlM_cons, List.foldlM_nil, htrie]
          rfl
      · exact absurd hset (by simp)
  | recv behind =>
      obtain ⟨s₁, r₁, hrecv, htrie, hs⟩ := recv_spec h behind
      obtain ⟨rfl, rfl⟩ := Prod.mk.inj (Except.ok.inj (hrecv.symm.trans hcall))
      refine ⟨hs.inv, ?_, ?_⟩
      · intro came went hr
        exact (List.append_nil came).symm ▸ hs.received mine came went hr
      · rw [htrie]
        rfl

/-- In every run the messages are where they should be, and the trie is what the calls so far
have made of it. -/
theorem inv_run {labels : List Label} (h : (machine mine).system.Run labels s) :
    s.receiver.Inv ∧
      Received mine (labels.filterMap arrival) (labels.flatMap taken) s.receiver.pipes ∧
      runCalls trieInit (labels.filterMap call) = .ok s.trie := by
  refine Machine.run_rule (m := machine mine) (P := fun labels s => s.receiver.Inv ∧
    Received mine (labels.filterMap arrival) (labels.flatMap taken) s.receiver.pipes ∧
    runCalls trieInit (labels.filterMap call) = .ok s.trie)
    ⟨Receiver.inv_init, .init mine, rfl⟩ ?_ h
  intro labels s op s' r ih hen hnext
  obtain ⟨hinv, hreceived, htrie⟩ := ih
  have hs := sound hinv (l := (op, r)) ⟨hen, hnext⟩
  refine ⟨hs.inv, ?_, ?_⟩
  · rw [filterMap_concat, List.flatMap_append, List.flatMap_cons, List.flatMap_nil,
      List.append_nil]
    exact hs.received _ _ hreceived
  · rw [filterMap_concat, runCalls, List.foldlM_append]
    have hfirst : List.foldlM trieCall trieInit (labels.filterMap call) = .ok s.trie := htrie
    rw [hfirst]
    exact hs.trie

/-! ## Subscriptions -/

/-- Some string is stored in every trie that is not empty. -/
theorem exists_count_pos {n : TrieNode} (hwf : n.WF) (hn : n ≠ .null) :
    ∃ topic, 0 < count n topic := by
  induction n with
  | null => exact absurd rfl hn
  | node refcount pfx u child ih =>
      obtain ⟨-, hu, hleaf, hkids⟩ := hwf
      rcases Nat.eq_zero_or_pos u.type with htype | htype
      · exact ⟨pfx, by rw [count_self]; exact hleaf htype⟩
      · have hslot : 0 < u.slots ∧ (child 0).isNull = false := by
          cases u with
          | sparse children => exact ⟨htype, hu.2.2 0 htype⟩
          | dense min max nbr => exact ⟨Nat.succ_pos _, hu.2.2.1⟩
        obtain ⟨topic, htopic⟩ := ih 0 (hkids 0 hslot.1) (isNull_eq_false_iff.mp hslot.2)
        obtain ⟨c, hc⟩ := exists_kid_eq_slot hu hslot.1
        refine ⟨pfx ++ c :: topic, ?_⟩
        rw [count_append, below, hc]
        exact htopic

/-- Data that begins with a stored string does not end inside the trie. -/
theorem endsInside_eq_false {n : TrieNode} {topic : List UInt8} {d : List UInt8}
    (htopic : 0 < count n topic) (h : topic <+: d) : endsInside n d = false := by
  induction n generalizing topic d with
  | null => rfl
  | node refcount pfx u child ih =>
      unfold endsInside
      split
      · split
        · rfl
        · rename_i hpre hsub
          obtain ⟨t, rfl⟩ := hpre
          obtain rfl : refcount = 0 := by simpa [nodeHasSubscribers] using hsub
          have hpath : pfx <+: topic := by
            by_contra hoff
            rw [count_off_path hoff] at htopic
            exact absurd htopic (Nat.lt_irrefl 0)
          rw [List.drop_left]
          cases t with
          | nil =>
              rw [List.append_nil] at h
              obtain rfl := hpath.eq_of_length_le h.length_le
              rw [count_self] at htopic
              exact absurd htopic (Nat.lt_irrefl 0)
          | cons c rest =>
              obtain ⟨topic', hpos, hrest⟩ := exists_prefix_cons_iff.mp ⟨topic, htopic, h⟩
              unfold kid at hpos
              split at hpos
              · exact absurd hpos (by simp)
              · rename_i i hnext
                simp only [hnext]
                exact ih i hpos hrest
      · rfl

/-- Data that ends inside the trie is the beginning of a stored string. -/
theorem prefix_of_endsInside {n : TrieNode} {d : List UInt8} (hwf : n.WF)
    (h : endsInside n d = true) : ∃ topic, 0 < count n topic ∧ d <+: topic := by
  induction n generalizing d with
  | null => exact absurd h (by simp [endsInside])
  | node refcount pfx u child ih =>
      have hnode := hwf
      obtain ⟨-, hu, -, hkids⟩ := hwf
      unfold endsInside at h
      split at h
      · rename_i hpre
        obtain ⟨t, rfl⟩ := hpre
        rw [List.drop_left] at h
        split at h
        · exact absurd h (by simp)
        · cases t with
          | nil =>
              obtain ⟨topic, htopic⟩ := exists_count_pos hnode (by simp)
              refine ⟨topic, htopic, ?_⟩
              rw [List.append_nil]
              by_contra hoff
              rw [count_off_path hoff] at htopic
              exact absurd htopic (Nat.lt_irrefl 0)
          | cons c rest =>
              simp only at h
              split at h
              · exact absurd h (by simp)
              · rename_i i hnext
                obtain ⟨topic, htopic, hrest⟩ := ih i (hkids i (nodeNext_lt_slots hnext)) h
                refine ⟨pfx ++ c :: topic, ?_, ?_⟩
                · rw [count_append, below, kid, hnext]
                  exact htopic
                · rw [List.prefix_append_right_inj, List.cons_prefix_cons]
                  exact ⟨rfl, hrest⟩
      · exact absurd h (by simp)

/-- The calls that a run has made keep to what the trie counts right: every unsubscribe is for
a string that is subscribed to, and no call finds a node that would drop a count. -/
structure CallsCounted (calls : List TrieCall) : Prop where
  balanced : Balanced calls
  few : subscribes calls < uint32Size
  keeps : KeepsCounts calls

/-- Some subscription in force is a prefix of the message. -/
def Subscribed (calls : List TrieCall) (wire : List UInt8) : Prop :=
  ∃ topic, 0 < inForce calls topic ∧ topic <+: wire

/-- The message is the beginning of a subscription in force. -/
def CutShort (calls : List TrieCall) (wire : List UInt8) : Prop :=
  ∃ topic, 0 < inForce calls topic ∧ wire <+: topic

/-- What a receive does with the messages, for the subscriptions in force. -/
structure Filtered (calls : List TrieCall) (r : Screened) : Prop where
  dropped : ∀ e ∈ r.dropped, e.2.length < sizeTSize → ¬Subscribed calls e.2
  handed : ∀ e, r.handed = some e → e.2.length < sizeTSize →
    Subscribed calls e.2 ∨ CutShort calls e.2

theorem Screens.filtered {calls : List TrieCall} {trie : TrieNode} {s₁ s₂ : Receiver}
    {r : Screened} (h : Screens trie s₁ s₂ r) (hcalls : CallsCounted calls)
    (hrun : runCalls trieInit calls = .ok trie) : Filtered calls r := by
  obtain ⟨root, hroot, hwf, hcount⟩ :=
    runCalls_spec calls hcalls.balanced hcalls.few hcalls.keeps
  obtain rfl := Except.ok.inj (hrun.symm.trans hroot)
  refine ⟨?_, ?_⟩
  · intro e he hlen hsub
    obtain ⟨topic, hforce, hpre⟩ := hsub
    obtain ⟨behind, hmatch⟩ := h.dropped e he
    have htopic : 0 < count trie topic := (hcount topic).symm ▸ hforce
    have hone := (trieMatch_spec trie e.2 _ hlen (liesAt_inMemory e.2 behind)
      (endsInside_eq_false htopic hpre)).mpr ⟨topic, htopic, hpre⟩
    exact absurd (hmatch.symm.trans hone) (by simp)
  · intro e he hlen
    obtain ⟨behind, hmatch⟩ := h.handed e he
    cases hends : endsInside trie e.2 with
    | false =>
        obtain ⟨topic, htopic, hpre⟩ :=
          (trieMatch_spec trie e.2 _ hlen (liesAt_inMemory e.2 behind) hends).mp hmatch
        exact Or.inl ⟨topic, hcount topic ▸ htopic, hpre⟩
    | true =>
        obtain ⟨topic, htopic, hpre⟩ := prefix_of_endsInside hwf hends
        exact Or.inr ⟨topic, hcount topic ▸ htopic, hpre⟩

end Xsub

end GridMq.PubSub
