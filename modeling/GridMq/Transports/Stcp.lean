import GridMq.Transports.StreamRuns

set_option autoImplicit false

/-!
# TCP sessions (`src/transports/tcp/stcp.c`)

A message goes behind its length in eight bytes.  A length above `GRID_RCVMAXSIZE`, if
that is not negative, drops the connection.  Two sessions whose usocks are connected by a
stream that keeps the order of bytes carry every sequence of messages over.  The pipe is
not stopped with the connection: a message that is still sent then, or whose end is still
reported, ends the process.
-/

namespace GridMq.Transports.Stcp

open GridMq.Aio GridMq.Core GridMq.Library

/-- The header of stcp: `inhdr`, `outhdr` and what the handler does with the first. -/
def wireFormat : WireFormat where
  hdrLen := 8
  outhdr := putll
  checkHdr opt inhdr :=
    let size := getll inhdr
    .ok (if 0 ≤ opt ∧ opt < (size : Int) then none else some size)

/-- `grid_stcp_send`. -/
def send (self : Stream) (msg : Msg) (io : Io) : Except Abort Stream :=
  self.send wireFormat msg io

/-- `grid_stcp_recv`. -/
def recv (self : Stream) (io : Io) : Except Abort (Stream × List UInt8) :=
  self.recv wireFormat io

/-- `grid_stcp_handler`, from the start of the pipe on. -/
def handler (opt : Int) (self : Session) (type : UsockEvent) (io : Io) :
    Except Abort Session :=
  self.handler wireFormat opt type io

/-- The length is one that the receiver accepts, and it can be that of a message in
memory. -/
def Accepts (opt : Int) (size : Nat) : Prop := (0 ≤ opt → (size : Int) ≤ opt) ∧ Fits size

theorem lt_of_fits {size : Nat} (h : Fits size) : size < 2 ^ 64 := by
  have hhdr : chunkHdrsize = 32 := rfl
  have hptr : ptrdiffMax = 2 ^ 63 - 1 := rfl
  unfold Fits at h
  omega

variable {opt : Int}

theorem checkHdr_putll {size : Nat} (h : size < 2 ^ 64) :
    wireFormat.checkHdr opt (putll size) =
      .ok (if 0 ≤ opt ∧ opt < (size : Int) then none else some size) := by
  simp only [wireFormat, getll_putll h]

theorem size_accepts {size : Nat} (h : Accepts opt size) :
    (wireFormat.framing opt).size (putll size) = .ok size := by
  have hlt := lt_of_fits h.2
  have hno : ¬ (0 ≤ opt ∧ opt < (size : Int)) := by
    rintro ⟨h0, hgt⟩
    have := h.1 h0
    omega
  simp only [WireFormat.framing, checkHdr_putll hlt, if_neg hno, chunkrefInit_eq hlt,
    if_pos h.2]

theorem size_oversize {size : Nat} (h0 : 0 ≤ opt) (h : opt < (size : Int))
    (hlt : size < 2 ^ 64) : (wireFormat.framing opt).size (putll size) = .error none := by
  simp only [WireFormat.framing, checkHdr_putll hlt, if_pos (And.intro h0 h)]

/-- Messages that are accepted are cut out of the stream as they were sent. -/
theorem frames_of_accepts {msgs : List Msg} (h : ∀ msg ∈ msgs, Accepts opt msg.wire.length) :
    (wireFormat.framing opt).Frames (msgs.map wireFormat.frame).flatten
      (msgs.map Msg.wire) := by
  have hframes := Library.Framing.frames_flatten (F := wireFormat.framing opt)
    (fun body => putll body.length) fun body (hbody : body ∈ msgs.map Msg.wire) => by
      obtain ⟨msg, hmsg, rfl⟩ := List.mem_map.mp hbody
      exact ⟨length_putll _, size_accepts (h msg hmsg)⟩
  rw [List.map_map] at hframes
  exact hframes

theorem hdrLen_pos : 0 < wireFormat.hdrLen := by decide

/-- Two sessions, of which the second one has received some of what the first one has
written.  It delivers the messages of the first one, and all of them once both are at
rest; a message that is too long ends it behind the messages before.  No step ends the
process, but a message that is sent, or the end of one, when the session was ended so. -/
theorem session_round_trip {opt opt' : Int} {a b : Session}
    (ha : (Session.flowing wireFormat opt').Reachable a)
    (hb : (Session.flowing wireFormat opt).Reachable b) :
    ((∀ msg ∈ a.sent, Accepts opt msg.wire.length) →
      b.arrived <+: a.pipe.session.written →
      b.delivered <+: a.sent.map Msg.wire ∧ b.pipe.session.state = .active ∧
      (∀ l, b.Safe wireFormat opt l) ∧
      (a.failed = false → a.Quiet → b.arrived = a.pipe.session.written → b.Quiet →
        b.delivered = a.sent.map Msg.wire)) ∧
    (∀ (msgs : List Msg) (size : Nat) (tail : List UInt8),
      (∀ msg ∈ msgs, Accepts opt msg.wire.length) → 0 ≤ opt → opt < (size : Int) →
      size < 2 ^ 64 →
      b.arrived <+: (msgs.map wireFormat.frame).flatten ++ (putll size ++ tail) →
      b.delivered <+: msgs.map Msg.wire ∧
      (∀ l, b.Safe wireFormat opt l ↔ ¬ (l.Holds ∧ b.Enabled l ∧ b.SendsDropped l)) ∧
      (b.Quiet → ((msgs.map wireFormat.frame).flatten ++ putll size).length ≤ b.arrived.length →
        b.delivered = msgs.map Msg.wire ∧ b.failed = true)) ∧
    (∀ l a', a.Productive l → a.next wireFormat opt' l = .ok a' → a'.measure < a.measure) ∧
    ∀ l b', b.Productive l → b.next wireFormat opt l = .ok b' → b'.measure < b.measure := by
  have hfa := Session.flow_of_reachable hdrLen_pos ha
  have hfb := Session.flow_of_reachable hdrLen_pos hb
  refine ⟨?_, ?_, ?_, ?_⟩
  · rintro hacc ⟨unread, hunread⟩
    have hcut := frames_of_accepts hacc
    have harr : b.arrived ++ (unread ++ a.pipe.session.usock.out.flatten) =
        (a.sent.map wireFormat.frame).flatten := by
      rw [← List.append_assoc, hunread, hfa.written]
    obtain ⟨hle, hactive, hsafe, -⟩ := Session.receive_accepted hfb hdrLen_pos hcut harr
    refine ⟨hle, hactive, hsafe, ?_⟩
    intro hopen hqa hall hqb
    have hwritten := hfa.quiet_written hqa hopen
    exact (Session.receive_accepted hfb hdrLen_pos hcut
      (by rw [hall, List.append_nil, hwritten])).2.2.2 rfl hqb
  · rintro msgs size tail hacc h0 hgt hlt ⟨unread, hunread⟩
    exact Session.receive_oversize hfb hdrLen_pos (frames_of_accepts hacc)
      (length_putll size) (size_oversize h0 hgt hlt) hunread
  · intro l a' hp hnext
    exact ((hfa.step hdrLen_pos ⟨hp.1, hp.2.1, hnext⟩).2 hp).measure
  · intro l b' hp hnext
    exact ((hfb.step hdrLen_pos ⟨hp.1, hp.2.1, hnext⟩).2 hp).measure

/-- The runs computed from a start. -/
def run (opt : Int) (wire : List UInt8) (labels : List Session.Label) : Option Session :=
  match Session.start wireFormat [] wire (.bytes 100) with
  | .error _ => none
  | .ok s => System.follow (Session.flowingNext wireFormat opt) s labels

theorem run_reachable {opt : Int} {wire : List UInt8} {labels : List Session.Label}
    {s : Session} (h : run opt wire labels = some s) :
    (Session.flowing wireFormat opt).Reachable s := by
  unfold run at h
  split at h
  · exact absurd h (by simp)
  · rename_i s₀ hstart
    have hinit : (Session.flowing wireFormat opt).init s₀ := ⟨[], wire, 100, hstart⟩
    exact (System.Reachable.start hinit).follow (fun _ _ _ => Session.flowingNext_step) h

/-- A message of three bytes is sent and received. -/
theorem session_round_trip_one_message : ∃ a b : Session,
    (Session.flowing wireFormat (-1)).Reachable a ∧ (Session.flowing wireFormat 3).Reachable b ∧
      a.sent.map Msg.wire = [[1, 2, 3]] ∧ b.arrived = a.pipe.session.written ∧
      b.delivered = [[1, 2, 3]] ∧ b.delivered <+: a.sent.map Msg.wire ∧
      b.pipe.session.state = .active := by
  have hruna : (run (-1) [] [.deliver (.bytes 0), .send ⟨[1], [2, 3]⟩ (.bytes 100)]).any
      (fun a => a.sent = [⟨[1], [2, 3]⟩] ∧
        a.pipe.session.written = [0, 0, 0, 0, 0, 0, 0, 3, 1, 2, 3]) = true := by decide +kernel
  have hrunb : (run 3 [0, 0, 0, 0, 0, 0, 0, 3, 1, 2, 3] [.deliver (.bytes 0),
      .deliver (.bytes 0), .deliver (.bytes 0), .deliver (.bytes 0), .recv (.bytes 0)]).any
      (fun b => b.arrived = [0, 0, 0, 0, 0, 0, 0, 3, 1, 2, 3] ∧ b.delivered = [[1, 2, 3]]) =
      true := by decide +kernel
  obtain ⟨a, hruna, hpa⟩ := (Option.any_eq_true _ _).mp hruna
  obtain ⟨b, hrunb, hpb⟩ := (Option.any_eq_true _ _).mp hrunb
  obtain ⟨hsent, hwritten⟩ := of_decide_eq_true hpa
  obtain ⟨harrived, hdelivered⟩ := of_decide_eq_true hpb
  have hacc : ∀ msg ∈ a.sent, Accepts 3 msg.wire.length := by
    rw [hsent]
    intro msg hmsg
    rw [List.mem_singleton.mp hmsg]
    exact ⟨by decide, by decide⟩
  have harr : b.arrived <+: a.pipe.session.written :=
    ⟨[], by rw [harrived, hwritten, List.append_nil]⟩
  obtain ⟨hle, hactive, -⟩ :=
    (session_round_trip (run_reachable hruna) (run_reachable hrunb)).1 hacc harr
  exact ⟨a, b, run_reachable hruna, run_reachable hrunb, by rw [hsent]; rfl,
    harrived.trans hwritten.symm, hdelivered, hle, hactive⟩

/-- A session that has a limit of three bytes, and sends a message while the header of a
longer one is on its way to it. -/
theorem not_session_round_trip : ¬ ∀ (opt : Int) (size : Nat) (b : Session), 0 ≤ opt →
    opt < (size : Int) → size < 2 ^ 64 → (Session.flowing wireFormat opt).Reachable b →
    b.arrived <+: putll size → ∀ l, b.Safe wireFormat opt l := by
  intro hall
  have hrun : (run 3 (putll 4) [.deliver (.bytes 0), .send ⟨[], [7]⟩ (.bytes 100),
      .deliver (.bytes 0)]).any
      (fun b => b.arrived = putll 4 ∧ b.pipe.session.events = [.usock .sent, .done] ∧
        b.pipe.session.state = .done) = true := by decide +kernel
  obtain ⟨b, hrun, hb⟩ := (Option.any_eq_true _ _).mp hrun
  obtain ⟨harrived, hevents, hdone⟩ := of_decide_eq_true hb
  obtain ⟨b', hnext⟩ := hall 3 4 b (by decide) (by decide) (by decide) (run_reachable hrun)
    ⟨[], by rw [harrived, List.append_nil]⟩ (.deliver (.bytes 0)) (by simp [Session.Label.Holds])
    (by simp [Session.Enabled, hevents])
  have hfault : b.Fault wireFormat 3 (.deliver (.bytes 0)) := Or.inr ⟨[.done], hevents, hdone⟩
  obtain ⟨a, herror⟩ := Session.fault_error hfault
  rw [hnext] at herror
  exact absurd herror (by simp)

end GridMq.Transports.Stcp
