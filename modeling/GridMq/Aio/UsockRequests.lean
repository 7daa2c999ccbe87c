import GridMq.Aio.UsockBuffers
import GridMq.Library.Transition

set_option autoImplicit false

/-!
# The requests of the owner of a usock (`src/aio/usock.c`)

Receives and sends follow each other on a connection that holds, while the worker does its part
and bytes arrive in pieces of any size.  The batch buffer and the array of pieces are not seen:
the owner gets the stream in slices of the lengths it asked for, and what is written is what it
sent.  A usock that is started again for another connection shows its batch buffer: what was left
there comes before the new stream.
-/

namespace GridMq.Aio

open GridMq.Library

/-- A usock on a connection, what was left in its batch buffer before it, the bytes that arrived
there so far and those that were not read yet, the lengths of the receives and the memory of the
owner at each RECEIVED, the sends, what was written for them, and how many SENT were raised. -/
structure Requests where
  io : UsockMem := {}
  kept : List UInt8 := []
  arrived : List UInt8 := []
  wire : List UInt8 := []
  lengths : List Nat := []
  handed : List (List UInt8) := []
  sends : List (List (List UInt8)) := []
  written : List UInt8 := []
  sents : Nat := 0

/-- What happens on the connection: bytes arrive, the owner calls `grid_usock_recv` or
`grid_usock_send`, or the worker takes a task or finds the descriptor ready.  `n` is how many
bytes the call of the operating system can move; none of them is `EAGAIN`.  Or the connection
ends, and the owner stops the usock and starts it again for another one. -/
inductive Request where
  | arrive (bytes : List UInt8)
  | recv (dst : List UInt8) (n : Nat)
  | send (iov : List (List UInt8)) (n : Nat)
  | task
  | fdIn (n : Nat)
  | fdOut (n : Nat)
  | restart

namespace Requests

/-- After a call that reads. -/
def read (s : Requests) (r : UsockMem × List UInt8 × Option UsockEvent) : Requests :=
  { s with
    io := r.1
    wire := r.2.1
    handed := if r.2.2 = some .received then s.handed ++ [r.1.inPart.dst] else s.handed }

/-- After a call that writes. -/
def wrote (s : Requests) (r : UsockMem × List UInt8 × Option UsockEvent) : Requests :=
  { s with
    io := r.1
    written := s.written ++ r.2.1
    sents := if r.2.2 = some .sent then s.sents + 1 else s.sents }

/-- The beginning of another connection. -/
def restarted (s : Requests) : Requests :=
  { io := s.io.restarted, kept := s.io.inPart.unread }

/-- A usock is started again only with its positions at the end of the batch. -/
def Fresh (s : Requests) : Request → Prop
  | .restart => s.io.inPart.batchPos = s.io.inPart.batchLen
  | _ => True

end Requests

/-- The owner receives again after RECEIVED, and sends again after SENT. -/
def requestSystem : System Requests Request where
  init s := s = {}
  step s l s' :=
    match l with
    | .arrive bytes =>
        s' = { s with arrived := s.arrived ++ bytes, wire := s.wire ++ bytes }
    | .recv dst n => s.handed.length = s.lengths.length ∧ dst ≠ [] ∧ dst.length < 2 ^ 64 ∧
        ∃ r, s.io.recv dst s.wire (.bytes n) = .ok r ∧
          s' = { s with lengths := s.lengths ++ [dst.length] }.read r
    | .send iov n => s.sents = s.sends.length ∧ iov.length ≤ usockMaxIovcnt ∧ iov.flatten ≠ [] ∧
        ∃ r, s.io.send iov (.bytes n) = .ok r ∧
          s' = { s with sends := s.sends ++ [iov] }.wrote r
    | .task => s.io.tasks ≠ [] ∧ ∃ r, s.io.runTask = .ok r ∧ s' = { s with io := r.1 }
    | .fdIn n => s.io.pollIn = true ∧
        ∃ r, s.io.fdIn s.wire (.bytes n) = .ok r ∧ s' = s.read r
    | .fdOut n => s.io.pollOut = true ∧ ∃ r, s.io.fdOut (.bytes n) = .ok r ∧ s' = s.wrote r
    | .restart => s' = s.restarted

/-- The consecutive slices of a stream that have some lengths. -/
def slices : List Nat → List UInt8 → List (List UInt8)
  | [], _ => []
  | n :: lengths, stream => stream.take n :: slices lengths (stream.drop n)

theorem slices_flatten (l : List (List UInt8)) (rest : List UInt8) :
    slices (l.map List.length) (l.flatten ++ rest) = l := by
  induction l with
  | nil => rfl
  | cons b l ih =>
      rw [List.map_cons, slices, List.flatten_cons, List.append_assoc, List.take_left,
        List.drop_left, ih]

namespace Requests

variable {s s' : Requests} {u u' : Usock}

/-! ## What the requests have come to -/

/-- The bytes that were left or arrived are those that were handed out and those that are on
their way. -/
def InOrder (s : Requests) (u : Usock) : Prop :=
  u.NotReceiving ∧ s.lengths = s.handed.map List.length ∧
      s.kept ++ s.arrived = s.handed.flatten ++ (u.batch ++ s.wire) ∨
    u.Receiving ∧ s.lengths = s.handed.map List.length ++ [u.inBuf.length + u.inLen] ∧
      s.kept ++ s.arrived = s.handed.flatten ++ (u.inBuf ++ (u.batch ++ s.wire))

/-- The bytes that were to be sent are those that were written and those that are left. -/
def OutOrder (s : Requests) (u : Usock) : Prop :=
  u.NotSending ∧ s.sents = s.sends.length ∧ s.written = s.sends.flatten.flatten ∨
    u.Sending ∧ s.sents + 1 = s.sends.length ∧
      s.written ++ u.out.flatten = s.sends.flatten.flatten

/-- What holds at any time. -/
structure Inv (s : Requests) (u : Usock) : Prop where
  stands : s.io.Stands u
  steady : u.Steady
  inOrder : s.InOrder u
  outOrder : s.OutOrder u

theorem inv_init : Inv {} Usock.connected where
  stands := UsockMem.stands_connected
  steady := Usock.steady_connected []
  inOrder := Or.inl ⟨⟨by simp [Usock.connected], rfl, rfl⟩, rfl, rfl⟩
  outOrder := Or.inl ⟨⟨by simp [Usock.connected], rfl, rfl⟩, rfl, rfl⟩

/-- No request is open in one direction when all have been answered. -/
theorem InOrder.idle (h : s.InOrder u) (hall : s.handed.length = s.lengths.length) :
    u.NotReceiving ∧ s.lengths = s.handed.map List.length ∧
      s.kept ++ s.arrived = s.handed.flatten ++ (u.batch ++ s.wire) := by
  rcases h with h | ⟨-, hlengths, -⟩
  · exact h
  · rw [hlengths] at hall
    simp at hall

theorem OutOrder.idle (h : s.OutOrder u) (hall : s.sents = s.sends.length) :
    u.NotSending ∧ s.sents = s.sends.length ∧ s.written = s.sends.flatten.flatten := by
  rcases h with h | ⟨-, hsents, -⟩
  · exact h
  · omega

theorem InOrder.open (h : s.InOrder u) (hopen : s.handed.length ≠ s.lengths.length) :
    u.Receiving ∧ s.lengths = s.handed.map List.length ++ [u.inBuf.length + u.inLen] ∧
      s.kept ++ s.arrived = s.handed.flatten ++ (u.inBuf ++ (u.batch ++ s.wire)) := by
  rcases h with ⟨-, hlengths, -⟩ | h
  · exact absurd (by rw [hlengths, List.length_map]) hopen
  · exact h

theorem OutOrder.open (h : s.OutOrder u) (hopen : s.sents ≠ s.sends.length) :
    u.Sending ∧ s.sents + 1 = s.sends.length ∧
      s.written ++ u.out.flatten = s.sends.flatten.flatten := by
  rcases h with ⟨-, hsents, -⟩ | h
  · exact absurd hsents hopen
  · exact h

/-- One direction does not mind what goes on in the other. -/
theorem InOrder.same (h : s.InOrder u) (hsame : Usock.SameIn u u')
    (hlengths : s'.lengths = s.lengths) (hhanded : s'.handed = s.handed)
    (hkept : s'.kept = s.kept) (harrived : s'.arrived = s.arrived) (hwire : s'.wire = s.wire) :
    s'.InOrder u' := by
  rw [InOrder, hlengths, hhanded, hkept, harrived, hwire, hsame.batch, hsame.inBuf, hsame.inLen]
  rcases h with ⟨hnot, hrest⟩ | ⟨hrec, hrest⟩
  · exact Or.inl ⟨hsame.notReceiving hnot, hrest⟩
  · exact Or.inr ⟨hsame.receiving hrec, hrest⟩

theorem OutOrder.same (h : s.OutOrder u) (hsame : Usock.SameOut u u')
    (hsends : s'.sends = s.sends) (hwritten : s'.written = s.written)
    (hsents : s'.sents = s.sents) : s'.OutOrder u' := by
  rw [OutOrder, hsends, hwritten, hsents, hsame.out]
  rcases h with ⟨hnot, hrest⟩ | ⟨hsend, hrest⟩
  · exact Or.inl ⟨hsame.notSending hnot, hrest⟩
  · exact Or.inr ⟨hsame.sending hsend, hrest⟩

/-! ## The calls -/

/-- What is handed out when a read was the end of a receive for the bytes from `got` on. -/
theorem inOrder_read {len : Nat} {front : List UInt8}
    {r : UsockMem × List UInt8 × Option UsockEvent}
    (hrec : Usock.Received u u' len r.2.2)
    (hdst : r.2.2 = some .received → r.1.inPart.dst = u'.inBuf)
    (hlengths : s.lengths = s.handed.map List.length ++ [len])
    (harrived : s.kept ++ s.arrived = s.handed.flatten ++ front)
    (hdata : u'.inBuf ++ (u'.batch ++ r.2.1) = front) : (s.read r).InOrder u' := by
  have hlen := hrec.length
  rcases hrec.outcome with ⟨he, hnot, -⟩ | ⟨he, hopen, -⟩
  · refine Or.inl ⟨hnot, ?_, ?_⟩
    · rw [hnot.inLen, Nat.add_zero] at hlen
      simp only [read, he, if_true, hdst he, List.map_append, List.map_cons, List.map_nil, hlen,
        hlengths]
    · simp only [read, he, if_true, hdst he, List.flatten_append, List.flatten_cons,
        List.flatten_nil, List.append_nil, harrived, ← hdata, List.append_assoc]
  · refine Or.inr ⟨hopen, ?_, ?_⟩
    · rw [hlen]
      simp [read, he, hlengths]
    · simp [read, he, harrived, ← hdata]

/-- What a write comes to. -/
theorem outOrder_wrote {r : UsockMem × List UInt8 × Option UsockEvent}
    (hsent : Usock.Sent u u' r.2.2) (hsents : s.sents + 1 = s.sends.length)
    (hdata : s.written ++ (r.2.1 ++ u'.out.flatten) = s.sends.flatten.flatten) :
    (s.wrote r).OutOrder u' := by
  rcases hsent.outcome with ⟨he, hnot, -⟩ | ⟨he, hopen, -⟩
  · refine Or.inl ⟨hnot, ?_, ?_⟩
    · simp [wrote, he, hsents]
    · rw [hnot.out, List.flatten_nil, List.append_nil] at hdata
      exact hdata
  · refine Or.inr ⟨hopen, ?_, ?_⟩
    · simp [wrote, he, hsents]
    · rw [← List.append_assoc] at hdata
      exact hdata

/-- A receive of the owner. -/
theorem Inv.recv (h : s.Inv u) {dst : List UInt8} (hall : s.handed.length = s.lengths.length)
    (hdst : dst ≠ []) (hsize : dst.length < 2 ^ 64) (n : Nat) :
    ∃ r u', s.io.recv dst s.wire (.bytes n) = .ok r ∧
      Inv ({ s with lengths := s.lengths ++ [dst.length] }.read r) u' ∧
      u.recv s.wire dst.length (.bytes n) = .ok (u', r.2) ∧
      (r.2.2 = some .received → r.1.inPart.dst = u'.inBuf) := by
  obtain ⟨hnot, hlengths, harrived⟩ := h.inOrder.idle hall
  obtain ⟨f', u', wire', e, hmem, hcall, hstands, hbuf⟩ :=
    h.stands.recv h.steady hnot hsize s.wire n
  obtain ⟨u₁, wire₁, e₁, hcall₁, hrec, hdata⟩ :=
    Usock.recv_spec h.steady hnot s.wire (List.length_pos_iff.mpr hdst) n
  obtain ⟨rfl, hrest⟩ := Prod.mk.inj (Except.ok.inj (hcall.symm.trans hcall₁))
  obtain ⟨rfl, rfl⟩ := Prod.mk.inj hrest
  refine ⟨_, u', hmem, ⟨hstands, hrec.steady, ?_, h.outOrder.same hrec.sameOut rfl rfl rfl⟩, hcall,
    hbuf⟩
  exact inOrder_read hrec hbuf (by rw [hlengths]) harrived hdata

/-- The worker reads for the owner. -/
theorem Inv.fdIn (h : s.Inv u) (hpoll : s.io.pollIn = true) (n : Nat) :
    ∃ r u', s.io.fdIn s.wire (.bytes n) = .ok r ∧ Inv (s.read r) u' ∧
      u'.tasks = u.tasks ∧ (0 < n → s.wire ≠ [] → u'.inLen < u.inLen) := by
  have hpoll' : u.pollIn = true := h.stands.pollIn.symm.trans hpoll
  have hopen : s.handed.length ≠ s.lengths.length := by
    intro hall
    have hoff := (h.inOrder.idle hall).1.pollIn
    rw [hpoll'] at hoff
    exact absurd hoff (by simp)
  obtain ⟨hrec, hlengths, harrived⟩ := h.inOrder.open hopen
  obtain ⟨f', u', wire', e, hmem, hcall, hstands, hbuf⟩ := h.stands.fdIn h.steady hrec s.wire n
  obtain ⟨u₁, wire₁, e₁, hcall₁, hgot, hdata, htasks, hmore⟩ :=
    Usock.fdIn_spec h.steady hrec hpoll' s.wire n
  obtain ⟨rfl, hrest⟩ := Prod.mk.inj (Except.ok.inj (hcall.symm.trans hcall₁))
  obtain ⟨rfl, rfl⟩ := Prod.mk.inj hrest
  rw [hrec.batch, List.nil_append] at harrived
  refine ⟨_, u', hmem, ⟨hstands, hgot.steady, inOrder_read hgot hbuf hlengths harrived hdata,
    h.outOrder.same hgot.sameOut rfl rfl rfl⟩, htasks, ?_⟩
  intro hn hwire
  have hlen := hgot.length
  have := hmore hn hwire
  omega

/-- A send of the owner. -/
theorem Inv.send (h : s.Inv u) {iov : List (List UInt8)} (hall : s.sents = s.sends.length)
    (hiov : iov.length ≤ usockMaxIovcnt) (n : Nat) :
    ∃ r u', s.io.send iov (.bytes n) = .ok r ∧
      Inv ({ s with sends := s.sends ++ [iov] }.wrote r) u' := by
  obtain ⟨hnot, hsents, hwritten⟩ := h.outOrder.idle hall
  obtain ⟨u', w, e, hcall, hsent, hdata⟩ := Usock.send_spec h.steady hnot hiov n
  obtain ⟨f', hmem, hstands⟩ := h.stands.send h.steady hnot hiov hcall
  refine ⟨_, u', hmem, hstands, hsent.steady, h.inOrder.same hsent.sameIn rfl rfl rfl rfl rfl, ?_⟩
  refine outOrder_wrote hsent ?_ ?_
  · rw [List.length_append, List.length_singleton, hsents]
  · change s.written ++ (w ++ u'.out.flatten) = (s.sends ++ [iov]).flatten.flatten
    rw [hdata, hwritten, List.flatten_append, List.flatten_append]
    simp

/-- The worker writes for the owner. -/
theorem Inv.fdOut (h : s.Inv u) (hpoll : s.io.pollOut = true) (n : Nat) :
    ∃ r u', s.io.fdOut (.bytes n) = .ok r ∧ Inv (s.wrote r) u' ∧
      u'.tasks = u.tasks ∧ (0 < n → u'.out.flatten.length < u.out.flatten.length) := by
  have hpoll' : u.pollOut = true := h.stands.pollOut.symm.trans hpoll
  have hopen : s.sents ≠ s.sends.length := by
    intro hall
    have hoff := (h.outOrder.idle hall).1.pollOut
    rw [hpoll'] at hoff
    exact absurd hoff (by simp)
  obtain ⟨hsend, hsents, hwritten⟩ := h.outOrder.open hopen
  obtain ⟨u', w, e, hcall, hsent, hdata, htasks, hmore⟩ :=
    Usock.fdOut_spec h.steady hsend hpoll' n
  obtain ⟨f', hmem, hstands⟩ := h.stands.fdOut h.steady hsend.out hcall
  refine ⟨_, u', hmem, ⟨hstands, hsent.steady, h.inOrder.same hsent.sameIn rfl rfl rfl rfl rfl,
    outOrder_wrote hsent hsents (by rw [hdata, hwritten])⟩, htasks, ?_⟩
  intro hn
  have hlen := congrArg List.length hdata
  have hpos := List.length_pos_of_ne_nil (hmore hn)
  rw [List.length_append] at hlen
  omega

/-- The worker takes a task. -/
theorem Inv.task (h : s.Inv u) (htasks : s.io.tasks ≠ []) :
    ∃ r u', s.io.runTask = .ok r ∧ Inv { s with io := r.1 } u' ∧
      u'.tasks.length < u.tasks.length ∧ u'.inLen = u.inLen ∧ u'.out = u.out := by
  rw [h.stands.tasks] at htasks
  obtain ⟨task, tasks, hcons⟩ := List.exists_cons_of_ne_nil htasks
  obtain ⟨f', u', hmem, hcall, hstands⟩ := h.stands.runTask h.steady hcons
  obtain ⟨u₁, hcall₁, hsteady, hin, hout, hrest⟩ := Usock.runTask_spec h.steady hcons
  obtain ⟨rfl, -⟩ := Prod.mk.inj (Except.ok.inj (hcall.symm.trans hcall₁))
  refine ⟨_, u', hmem, ⟨hstands, hsteady, h.inOrder.same hin rfl rfl rfl rfl rfl,
    h.outOrder.same hout rfl rfl rfl⟩, ?_, hin.inLen, hout.out⟩
  rw [hrest, hcons, List.length_cons]
  exact Nat.lt_succ_self _

/-- Bytes arrive. -/
theorem Inv.arrive (h : s.Inv u) (bytes : List UInt8) :
    Inv { s with arrived := s.arrived ++ bytes, wire := s.wire ++ bytes } u := by
  refine ⟨h.stands, h.steady, ?_, h.outOrder⟩
  rcases h.inOrder with ⟨hnot, hlengths, harrived⟩ | ⟨hrec, hlengths, harrived⟩
  · refine Or.inl ⟨hnot, hlengths, ?_⟩
    change s.kept ++ (s.arrived ++ bytes) = _
    rw [← List.append_assoc, harrived]
    simp
  · refine Or.inr ⟨hrec, hlengths, ?_⟩
    change s.kept ++ (s.arrived ++ bytes) = _
    rw [← List.append_assoc, harrived]
    simp

/-- The owner stops the usock and starts it again. -/
theorem Inv.restart (h : s.Inv u) :
    Inv s.restarted { Usock.connected with batch := u.batch } where
  stands := h.stands.restarted
  steady := Usock.steady_connected u.batch
  inOrder := by
    refine Or.inl ⟨⟨by simp [Usock.connected], rfl, rfl⟩, rfl, ?_⟩
    rw [h.stands.leaves.left]
    rfl
  outOrder := Or.inl ⟨⟨by simp [Usock.connected], rfl, rfl⟩, rfl, rfl⟩

/-! ## Runs -/

/-- Every step keeps it. -/
theorem Inv.step (h : s.Inv u) {l : Request} (hstep : requestSystem.step s l s') :
    ∃ u', s'.Inv u' := by
  cases l with
  | arrive bytes =>
      obtain rfl := hstep
      exact ⟨u, h.arrive bytes⟩
  | recv dst n =>
      obtain ⟨hall, hdst, hsize, r, hcall, rfl⟩ := hstep
      obtain ⟨r', u', hcall', hinv, -⟩ := h.recv hall hdst hsize n
      obtain rfl := Except.ok.inj (hcall.symm.trans hcall')
      exact ⟨u', hinv⟩
  | send iov n =>
      obtain ⟨hall, hiov, -, r, hcall, rfl⟩ := hstep
      obtain ⟨r', u', hcall', hinv⟩ := h.send hall hiov n
      obtain rfl := Except.ok.inj (hcall.symm.trans hcall')
      exact ⟨u', hinv⟩
  | task =>
      obtain ⟨htasks, r, hcall, rfl⟩ := hstep
      obtain ⟨r', u', hcall', hinv, -⟩ := h.task htasks
      obtain rfl := Except.ok.inj (hcall.symm.trans hcall')
      exact ⟨u', hinv⟩
  | fdIn n =>
      obtain ⟨hpoll, r, hcall, rfl⟩ := hstep
      obtain ⟨r', u', hcall', hinv, -⟩ := h.fdIn hpoll n
      obtain rfl := Except.ok.inj (hcall.symm.trans hcall')
      exact ⟨u', hinv⟩
  | fdOut n =>
      obtain ⟨hpoll, r, hcall, rfl⟩ := hstep
      obtain ⟨r', u', hcall', hinv, -⟩ := h.fdOut hpoll n
      obtain rfl := Except.ok.inj (hcall.symm.trans hcall')
      exact ⟨u', hinv⟩
  | restart =>
      obtain rfl := hstep
      exact ⟨_, h.restart⟩

theorem inv_of_run {calls : List Request} (h : requestSystem.Run calls s) : ∃ u, s.Inv u := by
  induction h with
  | start hinit => exact ⟨_, hinit ▸ inv_init⟩
  | step _ hstep ih =>
      obtain ⟨u, hinv⟩ := ih
      exact hinv.step hstep

/-- What was left before the connection, in the runs where a usock is started again only with
nothing left. -/
theorem kept_eq_nil {calls : List Request} (h : (requestSystem.restrict Fresh).Run calls s) :
    requestSystem.Run calls s ∧ s.kept = [] := by
  induction h with
  | start hinit => exact ⟨.start hinit, congrArg Requests.kept hinit⟩
  | @step calls s s' l _ hstep ih =>
      obtain ⟨hrun, hkept⟩ := ih
      refine ⟨.step hrun hstep.2, ?_⟩
      cases l with
      | restart =>
          obtain rfl := hstep.2
          have hpos : s.io.inPart.batchPos = s.io.inPart.batchLen := hstep.1
          change (s.io.inPart.bytes.drop _).take (s.io.inPart.batchLen - _) = []
          rw [hpos, Nat.sub_self, List.take_zero]
      | arrive bytes =>
          obtain rfl := hstep.2
          exact hkept
      | recv dst n =>
          obtain ⟨-, -, -, r, -, rfl⟩ := hstep.2
          exact hkept
      | send iov n =>
          obtain ⟨-, -, -, r, -, rfl⟩ := hstep.2
          exact hkept
      | task | fdIn n | fdOut n =>
          obtain ⟨-, r, -, rfl⟩ := hstep.2
          exact hkept

/-- No call fails. -/
def Works (s : Requests) : Prop :=
  (∀ dst n, s.handed.length = s.lengths.length → dst ≠ [] → dst.length < 2 ^ 64 →
      ∃ r, s.io.recv dst s.wire (.bytes n) = .ok r) ∧
    (∀ iov n, s.sents = s.sends.length → iov.length ≤ usockMaxIovcnt →
      ∃ r, s.io.send iov (.bytes n) = .ok r) ∧
    (s.io.tasks ≠ [] → ∃ r, s.io.runTask = .ok r) ∧
    (∀ n, s.io.pollIn = true → ∃ r, s.io.fdIn s.wire (.bytes n) = .ok r) ∧
    ∀ n, s.io.pollOut = true → ∃ r, s.io.fdOut (.bytes n) = .ok r

theorem Inv.works (h : s.Inv u) : s.Works := by
  refine ⟨?_, ?_, ?_, ?_, ?_⟩
  · intro dst n hall hdst hsize
    obtain ⟨r, -, hcall, -⟩ := h.recv hall hdst hsize n
    exact ⟨r, hcall⟩
  · intro iov n hall hiov
    obtain ⟨r, -, hcall, -⟩ := h.send hall hiov n
    exact ⟨r, hcall⟩
  · intro htasks
    obtain ⟨r, -, hcall, -⟩ := h.task htasks
    exact ⟨r, hcall⟩
  · intro n hpoll
    obtain ⟨r, -, hcall, -⟩ := h.fdIn hpoll n
    exact ⟨r, hcall⟩
  · intro n hpoll
    obtain ⟨r, -, hcall, -⟩ := h.fdOut hpoll n
    exact ⟨r, hcall⟩

/-! ## Receiving -/

/-- The worker goes on reading: it finds bytes each time. -/
def Reading (l : Request) : Prop := l = .task ∨ ∃ n, l = .fdIn (n + 1)

/-- How many bytes the receive that is open lacks. -/
def toRead (s : Requests) : Nat :=
  if s.handed.length = s.lengths.length then 0 else s.io.inPart.len

theorem Inv.toRead (h : s.Inv u) : s.toRead = u.inLen := by
  unfold Requests.toRead
  split
  · rename_i hall
    exact (h.inOrder.idle hall).1.inLen.symm
  · rename_i hopen
    exact h.stands.len (h.inOrder.open hopen).1.inLen

/-- The worker reads until the receive that is open has all its bytes, when these have arrived. -/
theorem settles_reading (h : s.Inv u) (harrived : s.lengths.sum ≤ s.arrived.length) :
    requestSystem.Settles Reading (fun s => s.handed.length = s.lengths.length) s := by
  refine System.settles_of_rank (I := fun s => (∃ u, s.Inv u) ∧ s.lengths.sum ≤ s.arrived.length)
    (fun s => s.io.tasks.length + s.toRead) ?_ ?_ ?_ ⟨⟨u, h⟩, harrived⟩
  · rintro s l s' ⟨⟨u, hinv⟩, hsum⟩ hl hstep
    refine ⟨hinv.step hstep, ?_⟩
    rcases hl with rfl | ⟨n, rfl⟩
    · obtain ⟨-, r, -, rfl⟩ := hstep
      exact hsum
    · obtain ⟨-, r, -, rfl⟩ := hstep
      exact hsum
  · rintro s ⟨⟨u, hinv⟩, hsum⟩ hopen
    obtain ⟨hrec, -, -⟩ := hinv.inOrder.open hopen
    rcases hrec.worker with ⟨htask, -⟩ | ⟨-, hpoll⟩
    · have htasks : s.io.tasks ≠ [] := by
        rw [hinv.stands.tasks]
        exact List.ne_nil_of_mem htask
      obtain ⟨r, -, hcall, -⟩ := hinv.task htasks
      exact ⟨.task, _, Or.inl rfl, htasks, r, hcall, rfl⟩
    · have hpoll' : s.io.pollIn = true := hinv.stands.pollIn.trans hpoll
      obtain ⟨r, -, hcall, -⟩ := hinv.fdIn hpoll' 1
      exact ⟨.fdIn 1, _, Or.inr ⟨0, rfl⟩, hpoll', r, hcall, rfl⟩
  · rintro s l s' ⟨⟨u, hinv⟩, hsum⟩ hopen hl hstep
    obtain ⟨hrec, hlengths, harrived⟩ := hinv.inOrder.open hopen
    rcases hl with rfl | ⟨n, rfl⟩
    · obtain ⟨htasks, r, hcall, rfl⟩ := hstep
      obtain ⟨r', u', hcall', hinv', hless, hlen, -⟩ := hinv.task htasks
      obtain rfl := Except.ok.inj (hcall.symm.trans hcall')
      have htasks' := hinv'.stands.tasks
      simp only at htasks' ⊢
      rw [htasks', hinv'.toRead, hinv.stands.tasks, hinv.toRead]
      omega
    · obtain ⟨hpoll, r, hcall, rfl⟩ := hstep
      obtain ⟨r', u', hcall', hinv', htasks, hless⟩ := hinv.fdIn hpoll (n + 1)
      obtain rfl := Except.ok.inj (hcall.symm.trans hcall')
      have hwire : s.wire ≠ [] := by
        intro hnil
        have hpos := hrec.inLen
        have hlen := congrArg List.length harrived
        rw [hlengths] at hsum
        simp [hrec.batch, hnil, List.length_flatten] at hsum hlen
        omega
      have hmore := hless (Nat.succ_pos n) hwire
      have htasks' := hinv'.stands.tasks
      simp only [read] at htasks' ⊢
      rw [htasks', ← read, hinv'.toRead, hinv.stands.tasks, hinv.toRead, htasks]
      omega

/-- The owner sees the stream, and nothing of the batch buffer. -/
structure Received (s : Requests) : Prop where
  handed : s.handed = slices (s.lengths.take s.handed.length) s.arrived
  full : s.handed.map List.length = s.lengths.take s.handed.length
  once : s.handed.length = s.lengths.length ∨
    ∃ len, s.lengths = s.handed.map List.length ++ [len] ∧
      0 < s.io.inPart.len ∧ s.io.inPart.buf + s.io.inPart.len = len ∧
      s.io.inPart.dst.length = len ∧
      s.io.inPart.dst.take s.io.inPart.buf =
        (s.arrived.drop s.handed.flatten.length).take s.io.inPart.buf
  works : s.Works
  settles : s.lengths.sum ≤ s.arrived.length →
    requestSystem.Settles Reading (fun s => s.handed.length = s.lengths.length) s

/-- What was handed out when some lengths come first among those that were asked for. -/
theorem slices_of_arrived (more : List Nat) {rest : List UInt8}
    (hlengths : s.lengths = s.handed.map List.length ++ more)
    (hkept : s.kept = []) (harrived : s.kept ++ s.arrived = s.handed.flatten ++ rest) :
    s.handed = slices (s.lengths.take s.handed.length) s.arrived ∧
      s.handed.map List.length = s.lengths.take s.handed.length := by
  have htake : s.lengths.take s.handed.length = s.handed.map List.length := by
    rw [hlengths]
    exact List.take_left' (List.length_map ..)
  rw [hkept, List.nil_append] at harrived
  rw [htake, harrived, slices_flatten]
  exact ⟨rfl, rfl⟩

/-- However the stream comes in pieces, each receive gets the next slice of it, and its RECEIVED
once its last byte is there.  A usock that is started again must have nothing left in its batch
buffer. -/
theorem receives_slices {calls : List Request}
    (h : (requestSystem.restrict Fresh).Run calls s) : s.Received := by
  obtain ⟨hrun, hkept⟩ := kept_eq_nil h
  obtain ⟨u, hinv⟩ := inv_of_run hrun
  rcases hinv.inOrder with ⟨hnot, hlengths, harrived⟩ | ⟨hrec, hlengths, harrived⟩
  · obtain ⟨hslices, hfull⟩ := slices_of_arrived []
      (by rw [List.append_nil]; exact hlengths) hkept harrived
    refine ⟨hslices, hfull, Or.inl ?_, hinv.works, settles_reading hinv⟩
    rw [hlengths, List.length_map]
  · obtain ⟨hslices, hfull⟩ := slices_of_arrived [_] hlengths hkept harrived
    rw [hkept, List.nil_append] at harrived
    have hlen := hinv.stands.len hrec.inLen
    have hroom := hinv.stands.room hrec.inLen
    have hfilled := hinv.stands.filled hrec.inLen
    have hbuf : s.io.inPart.buf = u.inBuf.length := by
      rw [← hfilled, List.length_take]
      omega
    refine ⟨hslices, hfull, Or.inr ⟨_, hlengths, ?_, ?_, ?_, ?_⟩, hinv.works,
      settles_reading hinv⟩
    · rw [hlen]
      exact hrec.inLen
    · rw [hlen, hbuf]
    · rw [← hroom, hbuf]
    · rw [hfilled, harrived, List.drop_left, hbuf, List.take_left]

theorem step_arrive (s : Requests) (bytes : List UInt8) :
    (requestSystem.restrict Fresh).step s (.arrive bytes)
      { s with arrived := s.arrived ++ bytes, wire := s.wire ++ bytes } :=
  ⟨trivial, rfl⟩

theorem step_recv {dst : List UInt8} {n : Nat} {r : UsockMem × List UInt8 × Option UsockEvent}
    (hall : s.handed.length = s.lengths.length) (hdst : dst ≠ []) (hsize : dst.length < 2 ^ 64)
    (hcall : s.io.recv dst s.wire (.bytes n) = .ok r) :
    (requestSystem.restrict Fresh).step s (.recv dst n)
      ({ s with lengths := s.lengths ++ [dst.length] }.read r) :=
  ⟨trivial, hall, hdst, hsize, r, hcall, rfl⟩

/-- Three bytes arrive and are read at once; the owner gets two of them. -/
theorem run_twoOfThree :
    ∃ s, (requestSystem.restrict Fresh).Run [.arrive [1, 2, 3], .recv [0, 0] 3] s ∧
      s.Inv { Usock.connected with batch := [3], inBuf := [1, 2] } ∧ s.wire = [] ∧
      s.handed.length = s.lengths.length := by
  have hinv := inv_init.arrive [1, 2, 3]
  obtain ⟨r, u', hcall, hinv', hu, -⟩ :=
    hinv.recv rfl (show ([0, 0] : List UInt8) ≠ [] by simp) (by decide) 3
  have hu' : Usock.connected.recv [1, 2, 3] 2 (.bytes 3) =
      .ok ({ Usock.connected with batch := [3], inBuf := [1, 2] }, [], some .received) := rfl
  obtain ⟨rfl, hr⟩ := Prod.mk.inj (Except.ok.inj (hu'.symm.trans hu))
  refine ⟨_, .step (.step (.start rfl) (step_arrive {} [1, 2, 3]))
    (step_recv rfl (by simp) (by decide) hcall), hinv', ?_, ?_⟩
  · change r.2.1 = []
    rw [← hr]
  · simp [read, ← hr]

/-- The owner gets the third one too, and starts the usock again.  Of the two bytes that arrive
then it gets the first. -/
theorem receives_slices_twoStreams :
    ∃ s, (requestSystem.restrict Fresh).Run [.arrive [1, 2, 3], .recv [0, 0] 3, .recv [0] 0,
      .restart, .arrive [9, 8], .recv [0] 2] s ∧ s.arrived = [9, 8] ∧ s.Received := by
  obtain ⟨s, hrun, hinv, hwire, hall⟩ := run_twoOfThree
  have hone : ([0] : List UInt8) ≠ [] := by simp
  obtain ⟨r, u', hcall, hinv', hu, -⟩ := hinv.recv hall hone (by decide) 0
  have hu' : Usock.recv { Usock.connected with batch := [3], inBuf := [1, 2] } [] 1 (.bytes 0) =
      .ok ({ Usock.connected with inBuf := [3] }, [], some .received) := rfl
  rw [hwire] at hu
  obtain ⟨rfl, -⟩ := Prod.mk.inj (Except.ok.inj (hu'.symm.trans hu))
  have hrun₁ := hrun.step (step_recv hall hone (by decide) hcall)
  have hrestart : (requestSystem.restrict Fresh).step _ .restart (restarted _) :=
    ⟨hinv'.stands.leaves.pos_eq.mpr rfl, rfl⟩
  have hrun₂ := (hrun₁.step hrestart).step (step_arrive _ [9, 8])
  obtain ⟨r₁, -, hcall₁, -⟩ := (hinv'.restart.arrive [9, 8]).recv rfl hone (by decide) 2
  have hrun₃ := hrun₂.step (step_recv rfl hone (by decide) hcall₁)
  exact ⟨_, hrun₃, rfl, receives_slices hrun₃⟩

/-- Where the usock is started again with the third byte in the batch buffer, the owner gets that
one. -/
theorem not_receives_slices :
    ¬ ∀ (calls : List Request) (s : Requests), requestSystem.Run calls s → s.Received := by
  intro hreceived
  obtain ⟨s, hrun, hinv, -, -⟩ := run_twoOfThree
  have hone : ([0] : List UInt8) ≠ [] := by simp
  obtain ⟨r, u', hcall, -, hu, hdst⟩ := (hinv.restart.arrive [9]).recv rfl hone (by decide) 1
  have hu' : Usock.recv { Usock.connected with batch := [3] } [9] 1 (.bytes 1) =
      .ok ({ Usock.connected with inBuf := [3] }, [9], some .received) := rfl
  obtain ⟨rfl, hr⟩ := Prod.mk.inj (Except.ok.inj (hu'.symm.trans hu))
  have hrestart : requestSystem.step s .restart s.restarted := rfl
  have hlast := (((kept_eq_nil hrun).1.step hrestart).step (step_arrive _ [9]).2).step
    (step_recv rfl hone (by decide) hcall).2
  have hhanded := (hreceived _ _ hlast).handed
  simp [read, restarted, ← hr, slices] at hhanded
  rw [hdst (by rw [← hr])] at hhanded
  exact absurd hhanded (by decide)

/-! ## Sending -/

/-- The worker goes on writing: there is room each time. -/
def Writing (l : Request) : Prop := l = .task ∨ ∃ n, l = .fdOut (n + 1)

/-- How many bytes of the send that is open are left. -/
def toWrite (s : Requests) : Nat :=
  if s.sents = s.sends.length then 0 else s.io.outPart.pieces.flatten.length

theorem Inv.toWrite (h : s.Inv u) : s.toWrite = u.out.flatten.length := by
  unfold Requests.toWrite
  split
  · rename_i hall
    rw [(h.outOrder.idle hall).1.out]
    rfl
  · rename_i hopen
    rw [(h.stands.names (h.outOrder.open hopen).1.out).pieces]

/-- The worker writes until all pieces of the send that is open are written. -/
theorem settles_writing (h : s.Inv u) :
    requestSystem.Settles Writing (fun s => s.sents = s.sends.length) s := by
  refine System.settles_of_rank (I := fun s => ∃ u, s.Inv u)
    (fun s => s.io.tasks.length + s.toWrite) ?_ ?_ ?_ ⟨u, h⟩
  · rintro s l s' ⟨u, hinv⟩ - hstep
    exact hinv.step hstep
  · rintro s ⟨u, hinv⟩ hopen
    obtain ⟨hsend, -, -⟩ := hinv.outOrder.open hopen
    rcases hsend.worker with ⟨htask, -⟩ | ⟨-, hpoll⟩
    · have htasks : s.io.tasks ≠ [] := by
        rw [hinv.stands.tasks]
        exact List.ne_nil_of_mem htask
      obtain ⟨r, -, hcall, -⟩ := hinv.task htasks
      exact ⟨.task, _, Or.inl rfl, htasks, r, hcall, rfl⟩
    · have hpoll' : s.io.pollOut = true := hinv.stands.pollOut.trans hpoll
      obtain ⟨r, -, hcall, -⟩ := hinv.fdOut hpoll' 1
      exact ⟨.fdOut 1, _, Or.inr ⟨0, rfl⟩, hpoll', r, hcall, rfl⟩
  · rintro s l s' ⟨u, hinv⟩ hopen hl hstep
    rcases hl with rfl | ⟨n, rfl⟩
    · obtain ⟨htasks, r, hcall, rfl⟩ := hstep
      obtain ⟨r', u', hcall', hinv', hless, -, hout⟩ := hinv.task htasks
      obtain rfl := Except.ok.inj (hcall.symm.trans hcall')
      have htasks' := hinv'.stands.tasks
      simp only at htasks' ⊢
      rw [htasks', hinv'.toWrite, hinv.stands.tasks, hinv.toWrite, hout]
      omega
    · obtain ⟨hpoll, r, hcall, rfl⟩ := hstep
      obtain ⟨r', u', hcall', hinv', htasks, hless⟩ := hinv.fdOut hpoll (n + 1)
      obtain rfl := Except.ok.inj (hcall.symm.trans hcall')
      have hmore := hless (Nat.succ_pos n)
      have htasks' := hinv'.stands.tasks
      simp only [wrote] at htasks' ⊢
      rw [htasks', ← wrote, hinv'.toWrite, hinv.stands.tasks, hinv.toWrite, htasks]
      omega

/-- What was sent is written once and in order. -/
structure Sent (s : Requests) : Prop where
  written : s.written ++ (if s.sents = s.sends.length then [] else s.io.outPart.pieces.flatten) =
    s.sends.flatten.flatten
  once : s.sents = s.sends.length ∨
    s.sents + 1 = s.sends.length ∧ s.io.outPart.pieces.flatten ≠ []
  within : s.sents ≠ s.sends.length →
    s.io.outPart.msgIov + s.io.outPart.msgIovlen ≤ usockMaxIovcnt
  works : s.Works
  settles : requestSystem.Settles Writing (fun s => s.sents = s.sends.length) s

/-- However the pieces of a send are cut, their bytes are written, and SENT is raised once they all
are. -/
theorem sends_pieces {calls : List Request} (h : requestSystem.Run calls s) : s.Sent := by
  obtain ⟨u, hinv⟩ := inv_of_run h
  rcases hinv.outOrder with ⟨hnot, hsents, hwritten⟩ | ⟨hsend, hsents, hwritten⟩
  · refine ⟨?_, Or.inl hsents, fun hne => absurd hsents hne, hinv.works, settles_writing hinv⟩
    rw [if_pos hsents, List.append_nil, hwritten]
  · have hne : s.sents ≠ s.sends.length := by omega
    have hnames := hinv.stands.names hsend.out
    have hpieces := hnames.pieces
    refine ⟨?_, Or.inr ⟨hsents, ?_⟩, ?_, hinv.works, settles_writing hinv⟩
    · rw [if_neg hne, hpieces, hwritten]
    · rw [hpieces]
      intro hnil
      obtain ⟨p, hp⟩ := List.exists_mem_of_ne_nil _ hsend.out
      exact hsend.pieces p hp (List.flatten_eq_nil_iff.mp hnil p hp)
    · intro _
      have hcount := congrArg List.length hnames.entries
      rw [List.length_take, List.length_drop, List.length_map, hnames.size] at hcount
      have hpos := List.length_pos_iff.mpr hsend.out
      rw [hnames.count]
      omega

/-- Two pieces and an empty one are sent, of which only three bytes can be written at first. -/
theorem sends_pieces_threeOfFour :
    let calls : List Request := [.send [[1, 2], [], [3, 4]] 3]
    ∃ s, requestSystem.Run calls s ∧ s.Sent := by
  intro calls
  have hsend : ∃ s, requestSystem.step {} (.send [[1, 2], [], [3, 4]] 3) s :=
    ⟨_, rfl, by decide, by simp, _, rfl, rfl⟩
  obtain ⟨s, hsend⟩ := hsend
  have hrun : requestSystem.Run calls s := .step (.start rfl) hsend
  exact ⟨s, hrun, sends_pieces hrun⟩

end Requests

end GridMq.Aio
