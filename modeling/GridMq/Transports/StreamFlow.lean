import GridMq.Transports.Stream
import GridMq.Aio.UsockStream

set_option autoImplicit false

/-!
# Sessions while the connection holds

`Session.Flow` says where every byte that has arrived and every message that was sent is,
and what the session waits for.  Each kind of step is shown to succeed and to keep it; the
steps that make progress lower `Session.measure`.
-/

namespace GridMq.Transports

open GridMq.Aio GridMq.Core GridMq.Library

/-- The bytes of a message on the wire. -/
def WireFormat.frame (fmt : WireFormat) (msg : Msg) : List UInt8 :=
  fmt.outhdr msg.wire.length ++ msg.wire

/-- How much is still to be done about an event. -/
def StreamEvent.weight : StreamEvent → Nat
  | .usock _ => 10
  | .pipeIn => 6
  | .pipeOut => 6
  | .done => 1

/-- How much is still to be done with what was received and sent so far. -/
def Stream.measure (st : Stream) : Nat :=
  16 * (st.usock.batch.length + st.wire.length + st.usock.out.flatten.length) +
    st.usock.tasks.length + (st.events.map StreamEvent.weight).sum

namespace Session

/-- A step in which the connection does not break. -/
def Label.Holds : Label → Prop
  | .arrive _ => True
  | .deliver io => io ≠ .reset
  | .workerTask => True
  | .fdIn io => io ≠ .reset
  | .fdOut io => io ≠ .reset
  | .fdErr => False
  | .send _ io => io ≠ .reset
  | .recv io => io ≠ .reset

instance (l : Label) : Decidable l.Holds :=
  match l with
  | .arrive _ => inferInstanceAs (Decidable True)
  | .deliver _ => inferInstanceAs (Decidable (_ ≠ _))
  | .workerTask => inferInstanceAs (Decidable True)
  | .fdIn _ => inferInstanceAs (Decidable (_ ≠ _))
  | .fdOut _ => inferInstanceAs (Decidable (_ ≠ _))
  | .fdErr => inferInstanceAs (Decidable False)
  | .send _ _ => inferInstanceAs (Decidable (_ ≠ _))
  | .recv _ => inferInstanceAs (Decidable (_ ≠ _))

theorem exists_bytes {io : Io} (h : io ≠ .reset) : ∃ n, io = .bytes n := by
  cases io with
  | bytes n => exact ⟨n, rfl⟩
  | reset => exact absurd rfl h

/-- The runs in which the connection holds. -/
def flowing (fmt : WireFormat) (opt : Int) : System Session Label where
  init s := ∃ batch wire n, start fmt batch wire (.bytes n) = .ok s
  step s l s' := l.Holds ∧ (system fmt opt).step s l s'

/-- One step of such a run, if it can be taken and does not end the process. -/
def flowingNext (fmt : WireFormat) (opt : Int) (s : Session) (l : Label) : Option Session :=
  if l.Holds ∧ s.Enabled l then (s.next fmt opt l).toOption else none

theorem flowingNext_step {fmt : WireFormat} {opt : Int} {s s' : Session} {l : Label}
    (h : flowingNext fmt opt s l = some s') : (flowing fmt opt).step s l s' := by
  unfold flowingNext at h
  split at h
  · rename_i hcan
    refine ⟨hcan.1, hcan.2, ?_⟩
    cases hnext : s.next fmt opt l with
    | error a => simp [hnext, Except.toOption] at h
    | ok s'' => simpa [hnext, Except.toOption] using h
  · exact absurd h (by simp)

/-- The events of such a run. -/
def Plain (e : StreamEvent) : Prop :=
  e = .usock .sent ∨ e = .usock .received ∨ e = .pipeIn ∨ e = .pipeOut ∨ e = .done

/-- A message is being received: the usock still reads or has announced the bytes. -/
structure Reading (s : Session) (want : Nat) : Prop where
  instate : s.pipe.instate = .async
  readable : s.readable = false
  pipeIn : StreamEvent.pipeIn ∉ s.pipe.session.events
  length : s.pipe.session.usock.inBuf.length + s.pipe.session.usock.inLen = want
  request : StreamEvent.usock .received ∈ s.pipe.session.events ∧
      s.pipe.session.usock.NotReceiving ∨
    StreamEvent.usock .received ∉ s.pipe.session.events ∧ s.pipe.session.usock.Receiving

/-- The receiving half, with the bytes of the frame that is not complete and the messages
that are. -/
inductive Inbound (F : Framing UInt8 (Option Abort)) (s : Session) :
    List UInt8 → List (List UInt8) → Prop where
  /-- a header is awaited -/
  | hdr (hstate : s.pipe.session.state = .active) (hin : s.pipe.session.instate = .hdr)
      (hread : Reading s F.hdrLen) : Inbound F s s.pipe.session.usock.inBuf s.delivered
  /-- a body is awaited -/
  | body {n : Nat} (hstate : s.pipe.session.state = .active)
      (hin : s.pipe.session.instate = .body) (hlen : s.pipe.session.inhdr.length = F.hdrLen)
      (hsize : F.size s.pipe.session.inhdr = .ok n) (hread : Reading s n) :
      Inbound F s (s.pipe.session.inhdr ++ s.pipe.session.usock.inBuf) s.delivered
  /-- a message waits for the socket -/
  | hasmsg (hstate : s.pipe.session.state = .active) (hin : s.pipe.session.instate = .hasmsg)
      (hpipe : s.pipe.instate = .idle)
      (hquiet : StreamEvent.usock .received ∉ s.pipe.session.events)
      (hnot : s.pipe.session.usock.NotReceiving)
      (hoffer : StreamEvent.pipeIn ∈ s.pipe.session.events ∧ s.readable = false ∨
        StreamEvent.pipeIn ∉ s.pipe.session.events ∧ s.readable = true) :
      Inbound F s [] (s.delivered ++ [s.pipe.session.inmsg])
  /-- a header has ended the session -/
  | refused (hstate : s.pipe.session.state = .done)
      (hlen : s.pipe.session.inhdr.length = F.hdrLen)
      (hsize : F.size s.pipe.session.inhdr = .error none)
      (hquiet : StreamEvent.usock .received ∉ s.pipe.session.events)
      (hnot : s.pipe.session.usock.NotReceiving)
      (hin : StreamEvent.pipeIn ∉ s.pipe.session.events) (hread : s.readable = false) :
      Inbound F s s.pipe.session.inhdr s.delivered

/-- The sending half. -/
inductive Outbound (s : Session) : Prop where
  /-- nothing is being sent -/
  | idle (hout : s.pipe.session.outstate = .idle) (hpipe : s.pipe.outstate = .idle)
      (hnot : s.pipe.session.usock.NotSending)
      (hquiet : StreamEvent.usock .sent ∉ s.pipe.session.events)
      (hoffer : StreamEvent.pipeOut ∈ s.pipe.session.events ∧ s.writable = false ∨
        StreamEvent.pipeOut ∉ s.pipe.session.events ∧ s.writable = true)
  /-- a message is being sent or its end was announced -/
  | sending (hout : s.pipe.session.outstate = .sending) (hpipe : s.pipe.outstate = .async)
      (hsent : s.sent ≠ []) (hwrite : s.writable = false)
      (hpipeOut : StreamEvent.pipeOut ∉ s.pipe.session.events)
      (hrequest : StreamEvent.usock .sent ∈ s.pipe.session.events ∧
          s.pipe.session.usock.NotSending ∨
        StreamEvent.usock .sent ∉ s.pipe.session.events ∧ s.pipe.session.usock.Sending)

/-- What holds of a session while its connection does. -/
structure Flow (fmt : WireFormat) (opt : Int) (s : Session) : Prop where
  steady : s.pipe.session.usock.Steady
  nodup : s.pipe.session.events.Nodup
  plain : ∀ e ∈ s.pipe.session.events, Plain e
  inbound : ∃ cut part bodies, (fmt.framing opt).Frames cut bodies ∧
    Inbound (fmt.framing opt) s part bodies ∧
    s.arrived = cut ++ part ++ (s.pipe.session.usock.batch ++ s.pipe.session.wire)
  outbound : s.failed = false → Outbound s
  written : s.pipe.session.written ++ s.pipe.session.usock.out.flatten =
    (s.sent.map fmt.frame).flatten
  attached : s.attached = !s.failed
  ended : StreamEvent.done ∈ s.pipe.session.events ↔
    s.pipe.session.state = .done ∧ s.failed = false
  last : StreamEvent.done ∈ s.pipe.session.events →
    s.pipe.session.events.getLast? = some .done
  failed : s.failed = true →
    s.pipe.session.state = .done ∧ s.pipe.session.events = [] ∧ s.writable = false

/-! ## Progress -/

/-- The same with the message that waits for the socket. -/
def measure (s : Session) : Nat :=
  Stream.measure s.pipe.session + 4 * s.readable.toNat

/-- A step that moves data or events and asks nothing new of the peer or of the user. -/
def Productive (s : Session) (l : Label) : Prop :=
  l.Holds ∧ s.Enabled l ∧
    match l with
    | .arrive _ => False
    | .send _ _ => False
    | .fdIn io => io ≠ .bytes 0 ∧ s.pipe.session.wire ≠ []
    | .fdOut io => io ≠ .bytes 0
    | _ => True

/-- Nothing is left to be done. -/
def Quiet (s : Session) : Prop := ∀ l, ¬ s.Productive l

/-! ## Raising events -/

theorem item_of_plain {e : StreamEvent} (h : Plain e) : e.item = e := by
  rcases h with rfl | rfl | rfl | rfl | rfl <;> rfl

/-- An event that is not queued can be raised. -/
theorem raise_plain (st : Stream) {e : StreamEvent} (hplain : ∀ e ∈ st.events, Plain e)
    (he : Plain e) (hnew : e ∉ st.events) :
    st.raise e = .ok { st with events := st.events ++ [e] } := by
  have hitems : e.item ∉ st.events.map StreamEvent.item := by
    intro hmem
    obtain ⟨e', he', heq⟩ := List.mem_map.mp hmem
    rw [item_of_plain he, item_of_plain (hplain e' he')] at heq
    exact hnew (heq ▸ he')
  unfold Stream.raise
  rw [gridAssert_pos hitems, ok_bind]
  rfl

/-- A pipe that was released is announced for sending again. -/
theorem pipeSent_async {s : Session} (hplain : ∀ e ∈ s.pipe.session.events, Plain e)
    (hpipe : s.pipe.outstate = .async) (hnew : StreamEvent.pipeOut ∉ s.pipe.session.events) :
    s.pipeSent = .ok { s with pipe := { s.pipe with
      outstate := .idle
      session := { s.pipe.session with events := s.pipe.session.events ++ [.pipeOut] } } } := by
  have hraise := raise_plain _ hplain (Or.inr (Or.inr (Or.inr (Or.inl rfl)))) hnew
  unfold pipeSent Pipe.sent
  rw [if_neg (by rw [hpipe]; simp), if_pos hpipe, ok_bind]
  simp only [Stream.raiseIf, if_true, hraise, ok_bind, pure_eq_ok]

/-- The same for receiving. -/
theorem pipeReceived_async {s : Session} (hplain : ∀ e ∈ s.pipe.session.events, Plain e)
    (hpipe : s.pipe.instate = .async) (hnew : StreamEvent.pipeIn ∉ s.pipe.session.events) :
    s.pipeReceived = .ok { s with pipe := { s.pipe with
      instate := .idle
      session := { s.pipe.session with events := s.pipe.session.events ++ [.pipeIn] } } } := by
  have hraise := raise_plain _ hplain (Or.inr (Or.inr (Or.inl rfl))) hnew
  unfold pipeReceived Pipe.received
  rw [if_neg (by rw [hpipe]; simp), if_pos hpipe, ok_bind]
  simp only [Stream.raiseIf, if_true, hraise, ok_bind, pure_eq_ok]

theorem nodup_raise {events : List StreamEvent} {e : StreamEvent} (h : events.Nodup)
    (hnew : e ∉ events) : (events ++ [e]).Nodup := by
  rw [List.nodup_append]
  refine ⟨h, List.nodup_singleton e, ?_⟩
  intro a ha b hb hab
  obtain rfl := List.mem_singleton.mp hb
  exact hnew (hab ▸ ha)

theorem plain_raise {events : List StreamEvent} {e : StreamEvent}
    (h : ∀ e ∈ events, Plain e) (he : Plain e) : ∀ e' ∈ events ++ [e], Plain e' := by
  intro e' he'
  rcases List.mem_append.mp he' with he' | he'
  · exact h e' he'
  · rwa [List.mem_singleton.mp he']

theorem measure_raise (events : List StreamEvent) (e : StreamEvent) :
    ((events ++ [e]).map StreamEvent.weight).sum =
      (events.map StreamEvent.weight).sum + e.weight := by
  simp

/-- Events that were queued in order. -/
structure Queued (events events' : List StreamEvent) (e : StreamEvent) : Prop where
  nodup : events'.Nodup
  plain : ∀ e ∈ events', Plain e
  others : ∀ e', e' ≠ e → (e' ∈ events' ↔ e' ∈ events)

theorem queued_refl {events : List StreamEvent} {e : StreamEvent} (hnodup : events.Nodup)
    (hplain : ∀ e ∈ events, Plain e) : Queued events events e :=
  ⟨hnodup, hplain, fun _ _ => Iff.rfl⟩

theorem queued_raise {events : List StreamEvent} {e : StreamEvent} (hnodup : events.Nodup)
    (hplain : ∀ e ∈ events, Plain e) (he : Plain e) (hnew : e ∉ events) :
    Queued events (events ++ [e]) e :=
  ⟨nodup_raise hnodup hnew, plain_raise hplain he, fun e' hne => by simp [hne]⟩

/-- The session asks its usock for bytes. -/
theorem usockRecv_spec (st : Stream) (hu : st.usock.Steady) (hnot : st.usock.NotReceiving)
    (hnodup : st.events.Nodup) (hplain : ∀ e ∈ st.events, Plain e)
    (hnew : StreamEvent.usock .received ∉ st.events) {len : Nat} (hlen : 0 < len) (n : Nat) :
    ∃ u wire events, st.usockRecv len (.bytes n) =
        .ok { st with usock := u, wire := wire, events := events } ∧
      u.Steady ∧ Usock.SameOut st.usock u ∧ u.inBuf.length + u.inLen = len ∧
      u.inBuf ++ (u.batch ++ wire) = st.usock.batch ++ st.wire ∧
      Queued st.events events (.usock .received) ∧
      (StreamEvent.usock .received ∈ events ∧ u.NotReceiving ∨
        StreamEvent.usock .received ∉ events ∧ u.Receiving) ∧
      Stream.measure { st with usock := u, wire := wire, events := events } ≤
        Stream.measure st + 1 := by
  obtain ⟨u, wire, e, hcall, hrec, hdata⟩ := Usock.recv_spec hu hnot st.wire hlen n
  have hbytes := congrArg List.length hdata
  simp only [List.length_append] at hbytes
  unfold Stream.usockRecv
  rw [hcall, ok_bind]
  rcases hrec.outcome with ⟨rfl, hdone, htasks⟩ | ⟨rfl, hopen, htasks⟩
  · have hraise := raise_plain { st with usock := u, wire := wire } hplain
      (Or.inr (Or.inl rfl)) hnew
    refine ⟨u, wire, _, hraise, hrec.steady, hrec.sameOut, hrec.length, hdata,
      queued_raise hnodup hplain (Or.inr (Or.inl rfl)) hnew, Or.inl ⟨by simp, hdone⟩, ?_⟩
    have hall := hrec.length
    rw [hdone.inLen] at hall
    simp only [Stream.measure, measure_raise, StreamEvent.weight, htasks, hrec.sameOut.out]
    omega
  · refine ⟨u, wire, st.events, rfl, hrec.steady, hrec.sameOut, hrec.length, hdata,
      queued_refl hnodup hplain, Or.inr ⟨hnew, hopen⟩, ?_⟩
    simp only [Stream.measure, hrec.sameOut.out]
    omega

/-- The session hands its usock a message. -/
theorem usockSend_spec (st : Stream) (iov : List (List UInt8)) (hu : st.usock.Steady)
    (hnot : st.usock.NotSending) (hnodup : st.events.Nodup) (hplain : ∀ e ∈ st.events, Plain e)
    (hnew : StreamEvent.usock .sent ∉ st.events)
    (hiov : iov.length ≤ usockMaxIovcnt) (n : Nat) :
    ∃ u written events, st.usockSend iov (.bytes n) =
        .ok { st with usock := u, written := written, events := events } ∧
      u.Steady ∧ Usock.SameIn st.usock u ∧
      written ++ u.out.flatten = st.written ++ iov.flatten ∧
      Queued st.events events (.usock .sent) ∧
      (StreamEvent.usock .sent ∈ events ∧ u.NotSending ∨
        StreamEvent.usock .sent ∉ events ∧ u.Sending) := by
  obtain ⟨u, w, e, hcall, hsent, hdata⟩ := Usock.send_spec hu hnot hiov n
  have hwritten : st.written ++ w ++ u.out.flatten = st.written ++ iov.flatten := by
    rw [List.append_assoc, hdata]
  unfold Stream.usockSend
  rw [hcall, ok_bind]
  rcases hsent.outcome with ⟨rfl, hdone, -⟩ | ⟨rfl, hopen, -⟩
  · have hraise := raise_plain { st with usock := u, written := st.written ++ w } hplain
      (Or.inl rfl) hnew
    exact ⟨u, _, _, hraise, hsent.steady, hsent.sameIn, hwritten,
      queued_raise hnodup hplain (Or.inl rfl) hnew, Or.inl ⟨by simp, hdone⟩⟩
  · exact ⟨u, _, st.events, rfl, hsent.steady, hsent.sameIn, hwritten,
      queued_refl hnodup hplain, Or.inr ⟨hnew, hopen⟩⟩

/-! ## The halves of a session -/

/-- What the receiving half looks at is as before. -/
structure SameInbound (s s' : Session) : Prop where
  state : s'.pipe.session.state = s.pipe.session.state
  instate : s'.pipe.session.instate = s.pipe.session.instate
  inhdr : s'.pipe.session.inhdr = s.pipe.session.inhdr
  inmsg : s'.pipe.session.inmsg = s.pipe.session.inmsg
  usock : Usock.SameIn s.pipe.session.usock s'.pipe.session.usock
  received : StreamEvent.usock .received ∈ s'.pipe.session.events ↔
    StreamEvent.usock .received ∈ s.pipe.session.events
  pipeIn : StreamEvent.pipeIn ∈ s'.pipe.session.events ↔
    StreamEvent.pipeIn ∈ s.pipe.session.events
  pipe : s'.pipe.instate = s.pipe.instate
  readable : s'.readable = s.readable
  delivered : s'.delivered = s.delivered

/-- What the sending half looks at is as before. -/
structure SameOutbound (s s' : Session) : Prop where
  outstate : s'.pipe.session.outstate = s.pipe.session.outstate
  usock : Usock.SameOut s.pipe.session.usock s'.pipe.session.usock
  eventSent : StreamEvent.usock .sent ∈ s'.pipe.session.events ↔
    StreamEvent.usock .sent ∈ s.pipe.session.events
  pipeOut : StreamEvent.pipeOut ∈ s'.pipe.session.events ↔
    StreamEvent.pipeOut ∈ s.pipe.session.events
  pipe : s'.pipe.outstate = s.pipe.outstate
  writable : s'.writable = s.writable
  sent : s'.sent = s.sent

theorem Reading.congr {s s' : Session} {want : Nat} (hsame : SameInbound s s')
    (h : Reading s want) : Reading s' want where
  instate := hsame.pipe.trans h.instate
  readable := hsame.readable.trans h.readable
  pipeIn := fun hmem => h.pipeIn (hsame.pipeIn.mp hmem)
  length := by rw [hsame.usock.inBuf, hsame.usock.inLen]; exact h.length
  request := by
    rcases h.request with ⟨hmem, hdone⟩ | ⟨hmem, hopen⟩
    · exact Or.inl ⟨hsame.received.mpr hmem, hsame.usock.notReceiving hdone⟩
    · exact Or.inr ⟨fun hm => hmem (hsame.received.mp hm), hsame.usock.receiving hopen⟩

theorem Inbound.congr {F : Framing UInt8 (Option Abort)} {s s' : Session} {part : List UInt8}
    {bodies : List (List UInt8)} (hsame : SameInbound s s') (h : Inbound F s part bodies) :
    Inbound F s' part bodies := by
  cases h with
  | hdr hstate hin hread =>
      rw [← hsame.usock.inBuf, ← hsame.delivered]
      exact .hdr (hsame.state.trans hstate) (hsame.instate.trans hin) (hread.congr hsame)
  | body hstate hin hlen hsize hread =>
      rw [← hsame.inhdr] at hlen hsize
      rw [← hsame.inhdr, ← hsame.usock.inBuf, ← hsame.delivered]
      exact .body (hsame.state.trans hstate) (hsame.instate.trans hin) hlen hsize
        (hread.congr hsame)
  | hasmsg hstate hin hpipe hquiet hnot hoffer =>
      rw [← hsame.inmsg, ← hsame.delivered]
      refine .hasmsg (hsame.state.trans hstate) (hsame.instate.trans hin)
        (hsame.pipe.trans hpipe) (fun hm => hquiet (hsame.received.mp hm))
        (hsame.usock.notReceiving hnot) ?_
      rw [hsame.pipeIn, hsame.readable]
      exact hoffer
  | refused hstate hlen hsize hquiet hnot hin hread =>
      rw [← hsame.inhdr] at hlen hsize
      rw [← hsame.inhdr, ← hsame.delivered]
      exact .refused (hsame.state.trans hstate) hlen hsize
        (fun hm => hquiet (hsame.received.mp hm)) (hsame.usock.notReceiving hnot)
        (fun hm => hin (hsame.pipeIn.mp hm)) (hsame.readable.trans hread)

theorem Outbound.congr {s s' : Session} (hsame : SameOutbound s s') (h : Outbound s) :
    Outbound s' := by
  cases h with
  | idle hout hpipe hnot hquiet hoffer =>
      refine .idle (hsame.outstate.trans hout) (hsame.pipe.trans hpipe)
        (hsame.usock.notSending hnot) (fun hm => hquiet (hsame.eventSent.mp hm)) ?_
      rw [hsame.pipeOut, hsame.writable]
      exact hoffer
  | sending hout hpipe hsent hwrite hpipeOut hrequest =>
      refine .sending (hsame.outstate.trans hout) (hsame.pipe.trans hpipe)
        (by rw [hsame.sent]; exact hsent) (hsame.writable.trans hwrite)
        (fun hm => hpipeOut (hsame.pipeOut.mp hm)) ?_
      rcases hrequest with ⟨hmem, hdone⟩ | ⟨hmem, hopen⟩
      · exact Or.inl ⟨hsame.eventSent.mpr hmem, hsame.usock.notSending hdone⟩
      · exact Or.inr ⟨fun hm => hmem (hsame.eventSent.mp hm), hsame.usock.sending hopen⟩

end Session

end GridMq.Transports
