import GridMq.Transports.MsgqueueFrame
import GridMq.Transports.Statistics

set_option autoImplicit false

/-!
# The memory of a connecting inproc endpoint (`src/transports/inproc/cinproc.c`)

The endpoint has its session in itself.  When the bound side goes away the session is initialised
again where it is, and what it had before is not released.
-/

namespace GridMq.Transports

open GridMq.Library Msgqueue

/-! ## The endpoint -/

/-- `struct grid_cinproc` with its session, as far as they have memory.  `msg` is the message that
is being sent, if it is not an empty one, and `msgs` are the messages that the endpoint has. -/
structure Cinproc where
  state : CinprocState := .idle
  msgqueue : QueueMem
  msg : Option Msg := none
  msgs : List Msg := []

/-- `grid_msgqueue_init`, with the chunks that are allocated already. -/
def QueueMem.initIn (chunks : Nat → Option QueueChunk) (a maxmem : Nat) : QueueMem where
  chunks b := if b = a then some newChunk else chunks b
  outChunk := some a
  inChunk := some a
  maxmem := maxmem

/-- A message goes: `grid_msg_term`, or someone else has it now. -/
def releaseMsg (msgs : List Msg) : Option Msg → Except Abort (List Msg)
  | none => .ok msgs
  | some msg => if msg ∈ msgs then .ok (msgs.erase msg) else .error .nullPointer

/-- What happens to an endpoint.  An address `a` is where a new chunk is put. -/
inductive CinprocCall where
  /-- an event for the endpoint itself -/
  | event (e : CinprocEvent) (a rcvbuf : Nat)
  /-- a message of the peer goes to the queue -/
  | arrive (a : Nat) (msg : Msg)
  /-- `grid_sinproc_recv` -/
  | recv
  /-- `grid_sinproc_send` -/
  | send (msg : Msg)
  /-- the peer takes the message that is being sent -/
  | taken
  deriving DecidableEq, Repr

namespace Cinproc

/-- `grid_sinproc_init`. -/
def sinprocInit (self : Cinproc) (a rcvbuf : Nat) : Cinproc :=
  { self with msgqueue := .initIn self.msgqueue.chunks a rcvbuf, msg := none }

/-- `grid_cinproc_create`. -/
def create (chunks : Nat → Option QueueChunk) (a rcvbuf : Nat) : Except Abort Cinproc := do
  let self : Cinproc := { msgqueue := .initIn chunks a rcvbuf }
  let (state, _) ← self.state.handler .start
  return { self with state := state }

/-- What a call does. -/
def exec (self : Cinproc) : CinprocCall → Except Abort Cinproc
  | .event e a rcvbuf => do
      let (state, _) ← self.state.handler e
      -- the only event in the ACTIVE state is that the session was disconnected
      if self.state = .active then return { self with state := state }.sinprocInit a rcvbuf
      else return { self with state := state }
  | .arrive a msg => do
      match ← self.msgqueue.send a msg with
      | none => return self
      | some msgqueue => return { self with msgqueue := msgqueue, msgs := msg :: self.msgs }
  | .recv => do
      match ← self.msgqueue.recv with
      | none => .error .errnum
      | some (msg, msgqueue) => do
          let msgs ← releaseMsg self.msgs (some msg)
          return { self with msgqueue := msgqueue, msgs := msgs }
  | .send msg => do
      let nmsg : Msg := { body := msg.sphdr ++ msg.body }
      let msgs ← releaseMsg self.msgs self.msg
      return { self with msg := some nmsg, msgs := nmsg :: msgs }
  | .taken => do
      let msgs ← releaseMsg self.msgs self.msg
      return { self with msg := none, msgs := msgs }

/-- What can happen in a state. -/
def Enabled (self : Cinproc) : CinprocCall → Prop
  | .event e a rcvbuf =>
      (∃ r, self.state.handler e = .ok r) ∧ self.msgqueue.chunks a = none ∧ rcvbuf < 2 ^ 31
  | .arrive a msg =>
      self.state = .active ∧ self.msgqueue.chunks a = none ∧ msgSize msg < 2 ^ 63
  | .recv => self.state = .active ∧ self.msgqueue.count ≠ 0
  | .send _ => self.state = .active
  | .taken => self.state = .active

/-- The loop of `grid_msgqueue_term`, with a bound on its turns. -/
def drainMsgs : Nat → QueueMem → List Msg → Except Abort (QueueMem × List Msg)
  | 0, _, _ => .error .assertion
  | n + 1, q, msgs => do
      match ← q.recv with
      | none => return (q, msgs)
      | some (msg, q) => do
          let msgs ← releaseMsg msgs (some msg)
          drainMsgs n q msgs

/-- The end of `grid_msgqueue_term`: the last chunk goes, and the one that is kept. -/
def freeChunks (q : QueueMem) : Except Abort QueueMem := do
  gridAssert (q.inChunk = q.outChunk)
  let q ← q.free q.inChunk
  match q.cache with
  | none => return q
  | some a => q.free (some a)

/-- `grid_cinproc_destroy` with `grid_sinproc_term`, once the session has stopped. -/
def close (self : Cinproc) : Except Abort Cinproc := do
  let msgs ← releaseMsg self.msgs self.msg
  let (msgqueue, msgs) ← drainMsgs (self.msgqueue.count + 1) self.msgqueue msgs
  let msgqueue ← freeChunks msgqueue
  return { state := .idle, msgqueue := msgqueue, msgs := msgs }

end Cinproc

/-- An endpoint from its creation on.  `others` are the chunks that are not its own. -/
def cinprocSystem (others : Nat → Option QueueChunk) : System Cinproc CinprocCall where
  init s := ∃ a rcvbuf, others a = none ∧ rcvbuf < 2 ^ 31 ∧ Cinproc.create others a rcvbuf = .ok s
  step s call s' := s.Enabled call ∧ s.exec call = .ok s'

/-- The bound side goes away. -/
def CinprocCall.Disconnects : CinprocCall → Prop
  | .event e _ _ => e = .sinproc .disconnect
  | _ => False

/-- Nothing that can happen fails, and if the endpoint is closed then all that was allocated for
it has been released, and nothing else. -/
def Cinproc.Releases (s : Cinproc) (others : Nat → Option QueueChunk) : Prop :=
  (∀ call, s.Enabled call → ∃ s', s.exec call = .ok s') ∧
    ∃ s', s.close = .ok s' ∧ s'.msgqueue.chunks = others ∧ s'.msgs = []

/-! ## What an endpoint has -/

variable {others lost : Nat → Option QueueChunk} {gone : List Msg} {s s' : Cinproc}
  {q q' : QueueMem} {queue : List Msg} {maxmem : Nat}

/-- The chunks are those of the queue and those that were lost, and the messages are those of
the queue, the one that is being sent, and those that are gone. -/
structure Cinproc.Tracks (s : Cinproc) (lost : Nat → Option QueueChunk) (gone : List Msg)
    (q : QueueMem) (queue : List Msg) (maxmem : Nat) : Prop where
  msgqueue : s.msgqueue = q.onTop lost
  apart : q.Apart lost
  stands : StandsFor maxmem q queue
  max : maxmem ≤ 2 ^ 63
  msgs : s.msgs.Perm (queue ++ (s.msg.toList ++ gone))

theorem releaseMsg_cons {msgs rest : List Msg} {msg : Msg} (h : msgs.Perm (msg :: rest)) :
    ∃ msgs', releaseMsg msgs (some msg) = .ok msgs' ∧ msgs'.Perm rest := by
  have hmem : msg ∈ msgs := h.mem_iff.mpr (List.mem_cons_self ..)
  refine ⟨msgs.erase msg, if_pos hmem, ?_⟩
  have herase := h.erase msg
  rwa [List.erase_cons_head] at herase

theorem releaseMsg_toList {msgs rest : List Msg} {msg : Option Msg}
    (h : msgs.Perm (msg.toList ++ rest)) :
    ∃ msgs', releaseMsg msgs msg = .ok msgs' ∧ msgs'.Perm rest := by
  cases msg with
  | none => exact ⟨msgs, rfl, h⟩
  | some msg => exact releaseMsg_cons h

/-- The message that is being sent is released. -/
theorem Cinproc.Tracks.release (h : s.Tracks lost gone q queue maxmem) :
    ∃ msgs, releaseMsg s.msgs s.msg = .ok msgs ∧ msgs.Perm (queue ++ gone) := by
  have hperm : s.msgs.Perm (s.msg.toList ++ (queue ++ gone)) := by
    refine h.msgs.trans ?_
    rw [← List.append_assoc, ← List.append_assoc]
    exact List.perm_append_comm.append_right gone
  exact releaseMsg_toList hperm

theorem initIn_eq (chunks : Nat → Option QueueChunk) (a maxmem : Nat) :
    QueueMem.initIn chunks a maxmem = (QueueMem.init a maxmem).onTop chunks := by
  unfold QueueMem.initIn QueueMem.onTop QueueMem.init
  congr 1
  funext b
  by_cases hb : b = a
  · simp [hb]
  · simp [hb]

/-- A new session. -/
theorem tracks_initIn {chunks : Nat → Option QueueChunk} {a rcvbuf : Nat} {state : CinprocState}
    {msgs : List Msg} (ha : chunks a = none) (hrcvbuf : rcvbuf < 2 ^ 31) :
    Cinproc.Tracks { state := state, msgqueue := .initIn chunks a rcvbuf, msgs := msgs }
      chunks msgs (QueueMem.init a rcvbuf) [] rcvbuf where
  msgqueue := initIn_eq chunks a rcvbuf
  apart := by
    intro b hb
    simp only [QueueMem.init] at hb
    split at hb
    · rename_i heq
      rw [heq, ha]
    · exact absurd rfl hb
  stands := ⟨Msgqueue.init rcvbuf, [], a, rep_init a rcvbuf, wf_init rcvbuf,
    by simp [Msgqueue.init], rfl, rfl⟩
  max := by omega
  msgs := List.Perm.refl _

/-! ## Calls -/

theorem Cinproc.Tracks.arrive {a : Nat} {msg : Msg} (h : s.Tracks lost gone q queue maxmem)
    (hen : s.Enabled (.arrive a msg)) :
    ∃ s', s.exec (.arrive a msg) = .ok s' ∧ ∃ q' queue', s'.Tracks lost gone q' queue' maxmem := by
  obtain ⟨-, hfree, hsize⟩ := hen
  rw [h.msgqueue] at hfree
  obtain ⟨hfreeq, hfreel⟩ := QueueMem.free_of_onTop hfree
  obtain ⟨r, hsend⟩ := h.stands.holds.sends a msg hfreeq hsize
  obtain ⟨hsend', hapart'⟩ := QueueMem.send_onTop hsend h.apart hfreel
  have hstep : (queueSystem maxmem).step q (.send a msg r.isSome) (r.getD q) :=
    ⟨hfreeq, hsize, r, hsend, rfl, rfl⟩
  obtain ⟨queue', ⟨-, hqueue⟩, hstands⟩ := h.stands.step h.max hstep
  cases r with
  | none =>
    refine ⟨s, ?_, q, queue, h⟩
    simp only [Cinproc.exec, h.msgqueue, hsend', ok_bind]
    rfl
  | some q' =>
    refine ⟨{ s with msgqueue := q'.onTop lost, msgs := msg :: s.msgs }, ?_, q', queue', rfl,
      hapart' q' rfl, hstands, h.max, ?_⟩
    · simp only [Cinproc.exec, h.msgqueue, hsend', ok_bind]
      rfl
    · have htaken : (some q').isSome = true := rfl
      rw [if_pos htaken] at hqueue
      rw [hqueue, List.append_assoc]
      exact (h.msgs.cons msg).trans List.perm_middle.symm

theorem Cinproc.Tracks.recv (h : s.Tracks lost gone q queue maxmem)
    (hen : s.Enabled .recv) :
    ∃ s', s.exec .recv = .ok s' ∧ ∃ q' queue', s'.Tracks lost gone q' queue' maxmem := by
  obtain ⟨-, hcount⟩ := hen
  rw [h.msgqueue] at hcount
  obtain ⟨r, hrecv⟩ := h.stands.holds.recvs
  obtain ⟨hrecv', hapart'⟩ := QueueMem.recv_onTop hrecv h.apart
  have hstep : (queueSystem maxmem).step q (.recv (r.map Prod.fst)) ((r.map Prod.snd).getD q) :=
    ⟨r, hrecv, rfl, rfl⟩
  obtain ⟨queue', ⟨hhead, htail⟩, hstands⟩ := h.stands.step h.max hstep
  cases hqueue : queue with
  | nil =>
    have hzero := h.stands.holds.count
    rw [hqueue] at hzero
    exact absurd hzero hcount
  | cons msg rest =>
    rw [hqueue] at hhead htail
    cases r with
    | none => cases hhead
    | some x =>
      obtain ⟨msg', q'⟩ := x
      have hmsg : msg' = msg := Option.some.inj hhead
      subst hmsg
      have hperm : s.msgs.Perm (msg' :: (rest ++ (s.msg.toList ++ gone))) := by
        have hmsgs := h.msgs
        rw [hqueue] at hmsgs
        exact hmsgs
      obtain ⟨msgs', hrelease, hperm'⟩ := releaseMsg_cons hperm
      refine ⟨{ s with msgqueue := q'.onTop lost, msgs := msgs' }, ?_, q', queue', rfl,
        hapart' msg' q' rfl, hstands, h.max, ?_⟩
      · simp only [Cinproc.exec, h.msgqueue, hrecv', ok_bind, Option.map_some, hrelease]
        rfl
      · rw [htail]
        exact hperm'

theorem Cinproc.Tracks.send {msg : Msg} (h : s.Tracks lost gone q queue maxmem) :
    ∃ s', s.exec (.send msg) = .ok s' ∧ s'.Tracks lost gone q queue maxmem := by
  obtain ⟨msgs, hrelease, hperm⟩ := h.release
  let nmsg : Msg := { body := msg.sphdr ++ msg.body }
  refine ⟨{ s with msg := some nmsg, msgs := nmsg :: msgs }, ?_, h.msgqueue, h.apart, h.stands,
    h.max, ?_⟩
  · simp only [Cinproc.exec, hrelease, ok_bind]
    rfl
  · exact (hperm.cons nmsg).trans List.perm_middle.symm

theorem Cinproc.Tracks.taken (h : s.Tracks lost gone q queue maxmem) :
    ∃ s', s.exec .taken = .ok s' ∧ s'.Tracks lost gone q queue maxmem := by
  obtain ⟨msgs, hrelease, hperm⟩ := h.release
  refine ⟨{ s with msg := none, msgs := msgs }, ?_, h.msgqueue, h.apart, h.stands, h.max, hperm⟩
  simp only [Cinproc.exec, hrelease, ok_bind]
  rfl

/-- An event in a state other than ACTIVE. -/
theorem Cinproc.Tracks.event (h : s.Tracks lost gone q queue maxmem) (state : CinprocState) :
    Cinproc.Tracks { s with state := state } lost gone q queue maxmem :=
  ⟨h.msgqueue, h.apart, h.stands, h.max, h.msgs⟩

/-- In the ACTIVE state there is one event, and in no other one it comes. -/
theorem active_iff_disconnects {state : CinprocState} {e : CinprocEvent}
    {r : CinprocState × List StatCall} (h : state.handler e = .ok r) :
    state = .active ↔ e = .sinproc .disconnect := by
  unfold CinprocState.handler at h
  split at h <;> cases h <;> simp

/-- What can happen does not fail; what the endpoint has lost changes only when the bound side
goes away, and then it has lost all that it had. -/
theorem Cinproc.Tracks.exec {call : CinprocCall} (h : s.Tracks lost gone q queue maxmem)
    (hen : s.Enabled call) :
    ∃ s', s.exec call = .ok s' ∧
      ((¬call.Disconnects ∧ ∃ q' queue', s'.Tracks lost gone q' queue' maxmem) ∨
        (call.Disconnects ∧ ∃ q' rcvbuf, rcvbuf ≤ 2 ^ 63 ∧
          s'.Tracks s.msgqueue.chunks s.msgs q' [] rcvbuf)) := by
  cases call with
  | event e a rcvbuf =>
    obtain ⟨⟨⟨state, calls⟩, hhandler⟩, hfree, hrcvbuf⟩ := hen
    have hactive := active_iff_disconnects hhandler
    by_cases he : e = .sinproc .disconnect
    · refine ⟨{ s with state := state }.sinprocInit a rcvbuf, ?_, Or.inr ⟨he,
        QueueMem.init a rcvbuf, rcvbuf, by omega, tracks_initIn hfree hrcvbuf⟩⟩
      simp only [Cinproc.exec, hhandler, ok_bind, if_pos (hactive.mpr he)]
      rfl
    · refine ⟨{ s with state := state }, ?_, Or.inl ⟨he, q, queue, h.event state⟩⟩
      simp only [Cinproc.exec, hhandler, ok_bind, if_neg (fun ha => he (hactive.mp ha))]
      rfl
  | arrive a msg =>
    obtain ⟨s', hexec, hkeeps⟩ := h.arrive hen
    exact ⟨s', hexec, Or.inl ⟨fun hd => hd, hkeeps⟩⟩
  | recv =>
    obtain ⟨s', hexec, hkeeps⟩ := h.recv hen
    exact ⟨s', hexec, Or.inl ⟨fun hd => hd, hkeeps⟩⟩
  | send msg =>
    obtain ⟨s', hexec, hkeeps⟩ : ∃ s', s.exec (.send msg) = .ok s' ∧ _ := h.send
    exact ⟨s', hexec, Or.inl ⟨fun hd => hd, q, queue, hkeeps⟩⟩
  | taken =>
    obtain ⟨s', hexec, hkeeps⟩ := h.taken
    exact ⟨s', hexec, Or.inl ⟨fun hd => hd, q, queue, hkeeps⟩⟩

/-! ## The end -/

/-- The loop releases the messages of the queue. -/
theorem drainMsgs_ok (queue : List Msg) :
    ∀ (q : QueueMem) (m : Msgqueue) (before : List Nat) (out : Nat) (msgs : List Msg),
      Rep q m before out → m.WF → m.mem < 2 ^ 63 → m.contents = queue → q.Apart lost →
      msgs.Perm (queue ++ gone) →
      ∃ q' m' msgs', Cinproc.drainMsgs (queue.length + 1) (q.onTop lost) msgs =
          .ok (q'.onTop lost, msgs') ∧
        Rep q' m' [] out ∧ q'.inChunk = q'.outChunk ∧ q'.Apart lost ∧ msgs'.Perm gone := by
  induction queue with
  | nil =>
    intro q m before out msgs hrep hwf hsmall hcontents hapart hperm
    obtain ⟨rfl, -, -⟩ := hrep.single hwf (Or.inl hcontents)
    rcases hrep.recv hwf hsmall with ⟨-, hrecv⟩ | ⟨msg, rest, -, -, -, hcons, -⟩
    · obtain ⟨hrecv', -⟩ := QueueMem.recv_onTop hrecv hapart
      refine ⟨q, m, msgs, ?_, hrep, ?_, hapart, hperm⟩
      · rw [List.length_nil, Cinproc.drainMsgs, hrecv']
        rfl
      · rw [hrep.intact.first, hrep.intact.last]
        rfl
    · exact absurd (hcontents.symm.trans hcons) (by simp)
  | cons msg queue ih =>
    intro q m before out msgs hrep hwf hsmall hcontents hapart hperm
    rcases hrep.recv hwf hsmall with ⟨hnil, -⟩ | ⟨msg', rest, q₁, m₁, before₁, hcons, hrecv, hrep₁,
      hwf₁, hrest, -⟩
    · exact absurd (hcontents.symm.trans hnil) (by simp)
    · obtain ⟨rfl, rfl⟩ := List.cons.inj (hcontents.symm.trans hcons)
      have hsmall₁ : m₁.mem < 2 ^ 63 := by
        have hmem := hwf.mem
        rw [hcontents, sizes_cons] at hmem
        rw [hwf₁.mem, hrest]
        omega
      obtain ⟨hrecv', hapart'⟩ := QueueMem.recv_onTop hrecv hapart
      obtain ⟨msgs₁, hrelease, hperm₁⟩ := releaseMsg_cons hperm
      obtain ⟨q', m', msgs', hdrain, hend⟩ :=
        ih q₁ m₁ before₁ out msgs₁ hrep₁ hwf₁ hsmall₁ hrest (hapart' _ _ rfl) hperm₁
      refine ⟨q', m', msgs', ?_, hend⟩
      rw [List.length_cons, Cinproc.drainMsgs, hrecv', ok_bind]
      simp only [Option.map_some, hrelease, ok_bind]
      exact hdrain

theorem freeChunks_ok {out : Nat} (h : q.Intact [] out) (hshared : q.inChunk = q.outChunk)
    (hapart : q.Apart lost) :
    ∃ q', Cinproc.freeChunks (q.onTop lost) = .ok q' ∧ q'.chunks = lost := by
  obtain ⟨q₁, q₂, hfree, hcache, hnone⟩ := h.free
  obtain ⟨hfree', hapart₁⟩ := QueueMem.free_onTop hfree hapart
  have hchunks : (q₂.onTop lost).chunks = lost := by
    funext a
    rw [QueueMem.onTop_chunks, hnone a]
    rfl
  refine ⟨q₂.onTop lost, ?_, hchunks⟩
  have hshared' : (q.onTop lost).inChunk = (q.onTop lost).outChunk := hshared
  rw [Cinproc.freeChunks, gridAssert_pos hshared', ok_bind, QueueMem.onTop_inChunk, hfree',
    ok_bind, QueueMem.onTop_cache]
  cases hk : q₁.cache with
  | none =>
    rw [hk] at hcache
    obtain rfl := Except.ok.inj hcache
    rfl
  | some k =>
    rw [hk] at hcache
    exact (QueueMem.free_onTop hcache hapart₁).1

/-- When the endpoint is closed what is lost stays, and nothing else. -/
theorem Cinproc.Tracks.close (h : s.Tracks lost gone q queue maxmem) :
    ∃ s', s.close = .ok s' ∧ s'.msgqueue.chunks = lost ∧ s'.msgs.Perm gone := by
  obtain ⟨msgs, hrelease, hperm⟩ := h.release
  obtain ⟨m, before, out, hrep, hwf, hsmall, -, hcontents⟩ := h.stands
  have hcount : s.msgqueue.count = queue.length := by
    rw [h.msgqueue, QueueMem.onTop_count, hrep.count, hwf.count, hcontents]
  obtain ⟨q₁, m₁, msgs₁, hdrain, hrep₁, hshared, hapart₁, hperm₁⟩ :=
    drainMsgs_ok queue q m before out msgs hrep hwf hsmall hcontents h.apart hperm
  obtain ⟨q₂, hfree, hchunks⟩ := freeChunks_ok hrep₁.intact hshared hapart₁
  refine ⟨{ state := .idle, msgqueue := q₂, msgs := msgs₁ }, ?_, hchunks, hperm₁⟩
  rw [Cinproc.close, hrelease, ok_bind, hcount, h.msgqueue, hdrain, ok_bind]
  simp only [hfree, ok_bind]
  rfl

/-! ## Runs -/

/-- What holds in a run: nothing is lost while the bound side stays, and a chunk is lost once it
went away. -/
def Cinproc.Follows (s : Cinproc) (others : Nat → Option QueueChunk)
    (calls : List CinprocCall) : Prop :=
  ∃ lost gone q queue maxmem, s.Tracks lost gone q queue maxmem ∧
    (∀ a, others a ≠ none → lost a ≠ none) ∧
    ((∀ call ∈ calls, ¬call.Disconnects) → lost = others ∧ gone = []) ∧
    ((∃ call ∈ calls, call.Disconnects) → ∃ a, lost a ≠ none ∧ others a = none)

theorem create_follows {a rcvbuf : Nat} (ha : others a = none) (hrcvbuf : rcvbuf < 2 ^ 31)
    (h : Cinproc.create others a rcvbuf = .ok s) : s.Follows others [] := by
  obtain ⟨⟨state, calls⟩, -, h⟩ := bind_eq_ok_iff.mp h
  obtain rfl := Except.ok.inj h
  refine ⟨others, [], QueueMem.init a rcvbuf, [], rcvbuf, tracks_initIn ha hrcvbuf,
    fun _ hne => hne, fun _ => ⟨rfl, rfl⟩, ?_⟩
  rintro ⟨call, hmem, -⟩
  cases hmem

theorem step_follows {calls : List CinprocCall} {call : CinprocCall}
    (h : s.Follows others calls) (hstep : (cinprocSystem others).step s call s') :
    s'.Follows others (calls ++ [call]) := by
  obtain ⟨lost, gone, q, queue, maxmem, htracks, hothers, hnone, hsome⟩ := h
  obtain ⟨hen, hexec⟩ := hstep
  obtain ⟨s₁, hexec₁, hcases⟩ := htracks.exec hen
  obtain rfl := Except.ok.inj (hexec₁.symm.trans hexec)
  rcases hcases with ⟨hd, q', queue', htracks'⟩ | ⟨hd, q', rcvbuf, -, htracks'⟩
  · refine ⟨lost, gone, q', queue', maxmem, htracks', hothers, ?_, ?_⟩
    · intro hall
      exact hnone (fun c hc => hall c (List.mem_append_left [call] hc))
    · rintro ⟨c, hc, hdc⟩
      rcases List.mem_append.mp hc with hc | hc
      · exact hsome ⟨c, hc, hdc⟩
      · rw [List.mem_singleton.mp hc] at hdc
        exact absurd hdc hd
  · refine ⟨s.msgqueue.chunks, s.msgs, q', [], rcvbuf, htracks', ?_, ?_, ?_⟩
    · intro a ha hno
      rw [htracks.msgqueue] at hno
      exact hothers a ha (QueueMem.free_of_onTop hno).2
    · intro hall
      exact absurd hd (hall call (List.mem_append_right calls (List.mem_singleton_self call)))
    · intro _
      -- the chunk that is written is one of the session's
      obtain ⟨before, out, hintact⟩ := htracks.stands.holds.intact
      obtain ⟨c, hc⟩ :=
        hintact.there (List.mem_append_right before (List.mem_singleton_self out))
      refine ⟨out, ?_, ?_⟩
      · rw [htracks.msgqueue, QueueMem.onTop_chunks, hc]
        exact Option.some_ne_none c
      · by_contra hne
        exact hothers out hne (htracks.apart out (by rw [hc]; exact Option.some_ne_none c))

theorem run_follows {calls : List CinprocCall} (h : (cinprocSystem others).Run calls s) :
    s.Follows others calls := by
  induction h with
  | start hinit =>
    obtain ⟨a, rcvbuf, ha, hrcvbuf, hcreate⟩ := hinit
    exact create_follows ha hrcvbuf hcreate
  | step _ hstep ih => exact step_follows ih hstep

theorem releases_of_follows {calls : List CinprocCall} (h : s.Follows others calls)
    (hno : ∀ call ∈ calls, ¬call.Disconnects) : s.Releases others := by
  obtain ⟨lost, gone, q, queue, maxmem, htracks, -, hnone, -⟩ := h
  obtain ⟨rfl, rfl⟩ := hnone hno
  refine ⟨?_, ?_⟩
  · intro call hen
    obtain ⟨s', hexec, -⟩ := htracks.exec hen
    exact ⟨s', hexec⟩
  · obtain ⟨s', hclose, hchunks, hmsgs⟩ := htracks.close
    exact ⟨s', hclose, hchunks, List.perm_nil.mp hmsgs⟩

theorem not_releases_of_follows {calls : List CinprocCall} (h : s.Follows others calls)
    (hd : ∃ call ∈ calls, call.Disconnects) : ¬s.Releases others := by
  rintro ⟨-, s', hclose, hchunks, -⟩
  obtain ⟨lost, gone, q, queue, maxmem, htracks, -, -, hsome⟩ := h
  obtain ⟨s₁, hclose₁, hchunks₁, -⟩ := htracks.close
  obtain rfl := Except.ok.inj (hclose₁.symm.trans hclose)
  obtain ⟨a, hlost, hother⟩ := hsome hd
  rw [← hchunks₁, hchunks] at hlost
  exact hlost hother

/-- What the sessions of a connecting endpoint had is released if and only if the bound side
never goes away while the endpoint is open. -/
theorem Cinproc.releases_iff {calls : List CinprocCall}
    (h : (cinprocSystem others).Run calls s) :
    s.Releases others ↔ ∀ call ∈ calls, ¬call.Disconnects := by
  have hfollows := run_follows h
  constructor
  · intro hreleases call hmem hd
    exact not_releases_of_follows hfollows ⟨call, hmem, hd⟩ hreleases
  · exact releases_of_follows hfollows

/-- No chunk is allocated. -/
def noChunks : Nat → Option QueueChunk := fun _ => none

theorem create_noChunks : ∃ s, (cinprocSystem noChunks).Run [] s ∧ s.state = .disconnected ∧
    s.msgqueue = .initIn noChunks 1 100 := by
  let s : Cinproc := { state := .disconnected, msgqueue := .initIn noChunks 1 100 }
  have hcreate : Cinproc.create noChunks 1 100 = .ok s := rfl
  have hinit : (cinprocSystem noChunks).init s := ⟨1, 100, rfl, by decide, hcreate⟩
  exact ⟨s, .start hinit, rfl, rfl⟩

/-- The bound side comes. -/
theorem exec_connect (hstate : s.state = .disconnected) (a : Nat)
    (ha : s.msgqueue.chunks a = none) :
    ∃ s', (cinprocSystem others).step s (.event .connect a 100) s' ∧ s'.state = .active ∧
      s'.msgqueue = s.msgqueue := by
  have hhandler : s.state.handler .connect =
      .ok (.active, [.attempted, .increment .establishedConnections 1]) := by
    rw [hstate]
    rfl
  refine ⟨{ s with state := .active }, ⟨⟨⟨_, hhandler⟩, ha, by decide⟩, ?_⟩, rfl, rfl⟩
  simp only [Cinproc.exec, hstate]
  rfl

/-- The bound side goes. -/
theorem exec_disconnect (hstate : s.state = .active) (a : Nat)
    (ha : s.msgqueue.chunks a = none) :
    ∃ s', (cinprocSystem others).step s (.event (.sinproc .disconnect) a 100) s' := by
  have hhandler : s.state.handler (.sinproc .disconnect) = .ok (.disconnected, [.attempt]) := by
    rw [hstate]
    rfl
  refine ⟨{ s with state := .disconnected }.sinprocInit a 100,
    ⟨⟨⟨_, hhandler⟩, ha, by decide⟩, ?_⟩⟩
  simp only [Cinproc.exec, hstate]
  rfl

/-- A connection that stays: messages arrive, one of them is received, and messages are sent. -/
def connectedCalls : List CinprocCall :=
  [.event .connect 2 100, .arrive 2 { body := [1] }, .send { body := [2] },
    .arrive 2 { body := [3, 4] }, .recv, .taken, .send { body := [5] }]

theorem run_connectedCalls : ∃ s, (cinprocSystem noChunks).Run connectedCalls s ∧
    s.msgqueue.count = 1 ∧ s.msg ≠ none := by
  let s : Cinproc := { state := .disconnected, msgqueue := .initIn noChunks 1 100 }
  have hstart : (cinprocSystem noChunks).Run [] s := .start ⟨1, 100, rfl, by decide, rfl⟩
  have hconnect := hstart.step (l := CinprocCall.event .connect 2 100)
    ⟨⟨⟨_, rfl⟩, rfl, by decide⟩, rfl⟩
  have harrive := hconnect.step (l := CinprocCall.arrive 2 { body := [1] })
    ⟨⟨rfl, rfl, by decide⟩, rfl⟩
  have hsend := harrive.step (l := CinprocCall.send { body := [2] }) ⟨rfl, rfl⟩
  have hagain := hsend.step (l := CinprocCall.arrive 2 { body := [3, 4] })
    ⟨⟨rfl, rfl, by decide⟩, rfl⟩
  have hrecv := hagain.step (l := CinprocCall.recv) ⟨⟨rfl, by decide⟩, rfl⟩
  have htaken := hrecv.step (l := CinprocCall.taken) ⟨rfl, rfl⟩
  exact ⟨_, htaken.step (l := CinprocCall.send { body := [5] }) ⟨rfl, rfl⟩, rfl, by simp⟩

theorem Cinproc.releases_iff_connected : ∃ s, (cinprocSystem noChunks).Run connectedCalls s ∧
    s.msgqueue.count = 1 ∧ s.msg ≠ none ∧ s.Releases noChunks := by
  obtain ⟨s, hrun, hcount, hmsg⟩ := run_connectedCalls
  refine ⟨s, hrun, hcount, hmsg, (Cinproc.releases_iff hrun).mpr ?_⟩
  intro call hmem hd
  cases call with
  | event e a rcvbuf =>
    obtain rfl : e = .sinproc .disconnect := hd
    exact absurd hmem (by simp [connectedCalls])
  | _ => exact hd

/-- The bound side goes away once. -/
theorem not_releases : ∃ s, (cinprocSystem noChunks).Run
    [.event .connect 2 100, .event (.sinproc .disconnect) 2 100] s ∧ ¬s.Releases noChunks := by
  obtain ⟨s, hstart, hstate, hqueue⟩ := create_noChunks
  obtain ⟨s₁, hconnect, hstate₁, hqueue₁⟩ := exec_connect hstate 2 (by rw [hqueue]; rfl)
  obtain ⟨s₂, hdisconnect⟩ := exec_disconnect hstate₁ 2 (by rw [hqueue₁, hqueue]; rfl)
  have hrun : (cinprocSystem noChunks).Run
      [.event .connect 2 100, .event (.sinproc .disconnect) 2 100] s₂ :=
    .step (.step hstart hconnect) hdisconnect
  have hgoes : (CinprocCall.event (.sinproc .disconnect) 2 100).Disconnects := rfl
  refine ⟨s₂, hrun, not_releases_of_follows (run_follows hrun) ⟨_, ?_, hgoes⟩⟩
  exact List.mem_cons_of_mem _ (List.mem_singleton_self _)

end GridMq.Transports
