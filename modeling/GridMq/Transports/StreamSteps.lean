import GridMq.Transports.StreamFlow

set_option autoImplicit false

/-!
# The steps of a session while the connection holds

Every step that can be taken succeeds and keeps `Session.Flow`, unless a header ends the
process, or the socket still sends over a session that a header has ended.
-/

namespace GridMq.Transports.Session

open GridMq.Aio GridMq.Core GridMq.Library

variable {fmt : WireFormat} {opt : Int} {s : Session}

/-- The steps that end the process. -/
def Fault (fmt : WireFormat) (opt : Int) (s : Session) : Label → Prop
  | .deliver _ =>
      (∃ rest a, s.pipe.session.events = .usock .received :: rest ∧
        s.pipe.session.state = .active ∧ s.pipe.session.instate = .hdr ∧
        (fmt.framing opt).size s.pipe.session.usock.inBuf = .error (some a)) ∨
      ∃ rest, s.pipe.session.events = .usock .sent :: rest ∧ s.pipe.session.state = .done
  | .send _ _ => s.pipe.session.state = .done
  | _ => False

/-- Less is left to be done, and nothing new was asked for. -/
structure Progress (s s' : Session) : Prop where
  measure : s'.measure < s.measure
  arrived : s'.arrived = s.arrived
  sent : s'.sent = s.sent

/-- A step was taken that keeps the flow and makes progress if it is a productive one. -/
def Stepped (fmt : WireFormat) (opt : Int) (s : Session) (l : Label) : Prop :=
  ∃ s', s.next fmt opt l = .ok s' ∧ s'.Flow fmt opt ∧ (s.Productive l → Progress s s')

theorem stepped_arrive (h : s.Flow fmt opt) (bytes : List UInt8) :
    s.Stepped fmt opt (.arrive bytes) := by
  obtain ⟨cut, part, bodies, hcut, hin, harr⟩ := h.inbound
  refine ⟨_, rfl, ?_, fun hp => absurd hp.2.2 id⟩
  refine ⟨h.steady, h.nodup, h.plain, ?_, fun hf => (h.outbound hf).congr ?_, h.written,
    h.attached, h.ended, h.last, h.failed⟩
  · refine ⟨cut, part, bodies, hcut, hin.congr ?_, ?_⟩
    · exact ⟨rfl, rfl, rfl, rfl, ⟨rfl, rfl, rfl, id, id⟩, Iff.rfl, Iff.rfl, rfl, rfl, rfl⟩
    · change s.arrived ++ bytes = _
      rw [harr]
      simp only [setStream, List.append_assoc]
  · exact ⟨rfl, ⟨rfl, id, id⟩, Iff.rfl, Iff.rfl, rfl, rfl, rfl⟩

/-! ## The worker -/

theorem stepped_workerTask (h : s.Flow fmt opt) (hen : s.Enabled .workerTask) :
    s.Stepped fmt opt .workerTask := by
  obtain ⟨cut, part, bodies, hcut, hin, harr⟩ := h.inbound
  obtain ⟨task, tasks, htasks⟩ := List.exists_cons_of_ne_nil hen.2.2
  obtain ⟨u, hcall, hu, hsameIn, hsameOut, htl⟩ := Usock.runTask_spec h.steady htasks
  refine ⟨s.setStream { s.pipe.session with usock := u }, ?_, ?_, fun _ => ⟨?_, rfl, rfl⟩⟩
  · simp only [next, hcall, ok_bind, Stream.raiseUsock, pure_eq_ok]
  · refine ⟨hu, h.nodup, h.plain, ?_, fun hf => (h.outbound hf).congr ?_, ?_, h.attached,
      h.ended, h.last, h.failed⟩
    · refine ⟨cut, part, bodies, hcut, hin.congr ?_, ?_⟩
      · exact ⟨rfl, rfl, rfl, rfl, hsameIn, Iff.rfl, Iff.rfl, rfl, rfl, rfl⟩
      · simp only [setStream, hsameIn.batch]
        exact harr
    · exact ⟨rfl, hsameOut, Iff.rfl, Iff.rfl, rfl, rfl, rfl⟩
    · simp only [setStream, hsameOut.out]
      exact h.written
  · simp only [measure, Stream.measure, setStream, hsameIn.batch, hsameOut.out, htl, htasks,
      List.length_cons]
    omega

/-- The worker reads. -/
theorem stepped_fdIn (h : s.Flow fmt opt) (n : Nat) (hen : s.Enabled (.fdIn (.bytes n))) :
    s.Stepped fmt opt (.fdIn (.bytes n)) := by
  obtain ⟨cut, part, bodies, hcut, hin, harr⟩ := h.inbound
  obtain ⟨hopen, hevents, hpoll⟩ := hen
  -- a usock that is polled for input has an open receive
  have hreading : ∃ want, Reading s want ∧ s.pipe.session.usock.Receiving := by
    have hoff : ¬ s.pipe.session.usock.NotReceiving := fun hnot => by
      rw [hnot.pollIn] at hpoll
      exact absurd hpoll (by simp)
    cases hin with
    | hdr hstate hin hread => exact ⟨_, hread, (hread.request.resolve_left fun h => hoff h.2).2⟩
    | body hstate hin hlen hsize hread =>
        exact ⟨_, hread, (hread.request.resolve_left fun h => hoff h.2).2⟩
    | hasmsg hstate hin hpipe hquiet hnot hoffer => exact absurd hnot hoff
    | refused hstate hlen hsize hquiet hnot hin hread => exact absurd hnot hoff
  obtain ⟨want, hread, hrec⟩ := hreading
  obtain ⟨u, wire, e, hcall, hgot, hdata, htasks, hprogress⟩ :=
    Usock.fdIn_spec h.steady hrec hpoll s.pipe.session.wire n
  have hbytes := congrArg List.length hdata
  simp only [List.length_append] at hbytes
  have hmore : s.Productive (.fdIn (.bytes n)) →
      s.pipe.session.usock.inBuf.length < u.inBuf.length := by
    intro hp
    refine hprogress (Nat.pos_of_ne_zero fun hn => hp.2.2.1 ?_) hp.2.2.2
    rw [hn]
  have hnew : StreamEvent.usock .received ∉ s.pipe.session.events := by simp [hevents]
  -- what the usock reports is raised
  have hraised : ∃ events, ({ s.pipe.session with usock := u, wire := wire } :
        Stream).raiseUsock e =
        .ok { s.pipe.session with usock := u, wire := wire, events := events } ∧
      Queued s.pipe.session.events events (.usock .received) ∧
      (StreamEvent.usock .received ∈ events ∧ u.NotReceiving ∨
        StreamEvent.usock .received ∉ events ∧ u.Receiving) ∧
      (events.map StreamEvent.weight).sum ≤ 10 := by
    rcases hgot.outcome with ⟨rfl, hdone, -⟩ | ⟨rfl, hstill, -⟩
    · have hraise := raise_plain { s.pipe.session with usock := u, wire := wire }
        h.plain (Or.inr (Or.inl rfl)) hnew
      refine ⟨_, hraise, queued_raise h.nodup h.plain (Or.inr (Or.inl rfl)) hnew,
        Or.inl ⟨by simp, hdone⟩, ?_⟩
      simp [hevents, StreamEvent.weight]
    · exact ⟨s.pipe.session.events, rfl, queued_refl h.nodup h.plain, Or.inr ⟨hnew, hstill⟩,
        by simp [hevents]⟩
  obtain ⟨events, hraise, hq, hrequest, hweight⟩ := hraised
  have hread' : Reading (s.setStream
      { s.pipe.session with usock := u, wire := wire, events := events }) want :=
    ⟨hread.instate, hread.readable,
      fun hm => hread.pipeIn ((hq.others _ (by simp)).mp hm), hgot.length.trans hread.length,
      hrequest⟩
  have hdone := hq.others .done (by simp)
  refine ⟨s.setStream { s.pipe.session with usock := u, wire := wire, events := events }, ?_,
    ?_, fun hp => ⟨?_, rfl, rfl⟩⟩
  · simp only [next, hcall, ok_bind, hraise, pure_eq_ok]
  · refine ⟨hgot.steady, hq.nodup, hq.plain, ?_, fun hf => (h.outbound hf).congr ?_, ?_,
      h.attached, hdone.trans h.ended, ?_, ?_⟩
    · rw [hrec.batch, List.nil_append] at harr
      cases hin with
      | hdr hstate hin hread₂ =>
          obtain rfl := hread.length.symm.trans hread₂.length
          refine ⟨cut, _, _, hcut, .hdr hstate hin hread', ?_⟩
          change s.arrived = cut ++ u.inBuf ++ (u.batch ++ wire)
          simp only [List.append_assoc] at harr ⊢
          rw [hdata]
          exact harr
      | body hstate hin hlen hsize hread₂ =>
          obtain rfl := hread.length.symm.trans hread₂.length
          refine ⟨cut, _, _, hcut, .body hstate hin hlen hsize hread', ?_⟩
          change s.arrived = cut ++ (s.pipe.session.inhdr ++ u.inBuf) ++ (u.batch ++ wire)
          simp only [List.append_assoc] at harr ⊢
          rw [hdata]
          exact harr
      | hasmsg hstate hin hpipe hquiet hnot hoffer =>
          rw [hnot.pollIn] at hpoll
          exact absurd hpoll (by simp)
      | refused hstate hlen hsize hquiet hnot hin hread =>
          rw [hnot.pollIn] at hpoll
          exact absurd hpoll (by simp)
    · exact ⟨rfl, hgot.sameOut, hq.others _ (by simp), hq.others _ (by simp), rfl, rfl, rfl⟩
    · simp only [setStream, hgot.sameOut.out]
      exact h.written
    · intro hm
      have hm := hdone.mp hm
      rw [hevents] at hm
      exact absurd hm (by simp)
    · intro hf
      exact absurd (hopen.symm.trans hf) (by simp)
  · have hlt := hmore hp
    simp only [measure, Stream.measure, setStream, hgot.sameOut.out, htasks, hevents,
      List.map_nil, List.sum_nil, hrec.batch, List.length_nil]
    omega

/-- The worker writes. -/
theorem stepped_fdOut (h : s.Flow fmt opt) (n : Nat) (hen : s.Enabled (.fdOut (.bytes n))) :
    s.Stepped fmt opt (.fdOut (.bytes n)) := by
  obtain ⟨cut, part, bodies, hcut, hin, harr⟩ := h.inbound
  obtain ⟨hopen, hevents, hpoll⟩ := hen
  -- a usock that is polled for output has an open send
  cases h.outbound hopen with
  | idle hout hpipe hnot hquiet hoffer =>
      rw [hnot.pollOut] at hpoll
      exact absurd hpoll (by simp)
  | sending hout hpipe hsent hwrite hpipeOut hrequest =>
      rcases hrequest with ⟨-, hnot⟩ | ⟨hquiet, hsending⟩
      · rw [hnot.pollOut] at hpoll
        exact absurd hpoll (by simp)
      obtain ⟨u, w, e, hcall, hgone, hdata, htasks, hprogress⟩ :=
        Usock.fdOut_spec h.steady hsending hpoll n
      have hbytes := congrArg List.length hdata
      simp only [List.length_append] at hbytes
      have hmore : s.Productive (.fdOut (.bytes n)) → 0 < w.length := by
        intro hp
        refine List.length_pos_of_ne_nil (hprogress (Nat.pos_of_ne_zero fun hn => hp.2.2 ?_))
        rw [hn]
      have hraised : ∃ events, ({ s.pipe.session with
            usock := u, written := s.pipe.session.written ++ w } : Stream).raiseUsock e =
            .ok { s.pipe.session with
              usock := u, written := s.pipe.session.written ++ w, events := events } ∧
          Queued s.pipe.session.events events (.usock .sent) ∧
          (StreamEvent.usock .sent ∈ events ∧ u.NotSending ∨
            StreamEvent.usock .sent ∉ events ∧ u.Sending) ∧
          (events.map StreamEvent.weight).sum ≤ 10 := by
        rcases hgone.outcome with ⟨rfl, hdone, -⟩ | ⟨rfl, hstill, -⟩
        · have hraise := raise_plain { s.pipe.session with
            usock := u, written := s.pipe.session.written ++ w } h.plain (Or.inl rfl) hquiet
          refine ⟨_, hraise, queued_raise h.nodup h.plain (Or.inl rfl) hquiet,
            Or.inl ⟨by simp, hdone⟩, ?_⟩
          simp [hevents, StreamEvent.weight]
        · exact ⟨s.pipe.session.events, rfl, queued_refl h.nodup h.plain,
            Or.inr ⟨hquiet, hstill⟩, by simp [hevents]⟩
      obtain ⟨events, hraise, hq, hrequest, hweight⟩ := hraised
      have hdone := hq.others .done (by simp)
      refine ⟨s.setStream { s.pipe.session with
        usock := u, written := s.pipe.session.written ++ w, events := events }, ?_, ?_,
        fun hp => ⟨?_, rfl, rfl⟩⟩
      · simp only [next, hcall, ok_bind, hraise, pure_eq_ok]
      · refine ⟨hgone.steady, hq.nodup, hq.plain, ⟨cut, part, bodies, hcut, hin.congr ?_, ?_⟩,
          fun _ => ?_, ?_, h.attached, hdone.trans h.ended, ?_, ?_⟩
        · exact ⟨rfl, rfl, rfl, rfl, hgone.sameIn, hq.others _ (by simp), hq.others _ (by simp),
            rfl, rfl, rfl⟩
        · simp only [setStream, hgone.sameIn.batch]
          exact harr
        · exact .sending hout hpipe hsent hwrite
            (fun hm => hpipeOut ((hq.others _ (by simp)).mp hm)) hrequest
        · simp only [setStream, List.append_assoc, hdata]
          exact h.written
        · intro hm
          have hm := hdone.mp hm
          rw [hevents] at hm
          exact absurd hm (by simp)
        · intro hf
          exact absurd (hopen.symm.trans hf) (by simp)
      · have hlt := hmore hp
        simp only [measure, Stream.measure, setStream, hgone.sameIn.batch, htasks, hevents,
          List.map_nil, List.sum_nil]
        omega

/-! ## Events -/

/-- The last event of a queue stays the last one. -/
theorem getLast_tail {e : StreamEvent} {rest : List StreamEvent}
    (hlast : (e :: rest).getLast? = some .done) (hne : e ≠ .done) :
    rest.getLast? = some .done := by
  cases rest with
  | nil => exact absurd (Option.some.inj hlast) hne
  | cons e' rest => exact hlast

/-- The state of a session whose queue lost its first event. -/
structure Popped (fmt : WireFormat) (opt : Int) (s : Session) (e : StreamEvent)
    (rest : List StreamEvent) : Prop where
  nodup : rest.Nodup
  notin : e ∉ rest
  plain : ∀ e ∈ rest, Plain e
  others : ∀ e', e' ≠ e → (e' ∈ rest ↔ e' ∈ s.pipe.session.events)
  last : e ≠ .done → StreamEvent.done ∈ rest → rest.getLast? = some .done
  weight : (s.pipe.session.events.map StreamEvent.weight).sum =
    e.weight + (rest.map StreamEvent.weight).sum

theorem Flow.popped (h : s.Flow fmt opt) {e : StreamEvent} {rest : List StreamEvent}
    (hevents : s.pipe.session.events = e :: rest) : Popped fmt opt s e rest := by
  have hnd := List.nodup_cons.mp (hevents ▸ h.nodup)
  refine ⟨hnd.2, hnd.1, ?_, ?_, ?_, ?_⟩
  · intro e' he'
    exact h.plain e' (by rw [hevents]; exact List.mem_cons_of_mem e he')
  · intro e' hne
    rw [hevents, List.mem_cons, or_iff_right hne]
  · intro hne hm
    refine getLast_tail ?_ hne
    rw [← hevents]
    exact h.last (by rw [hevents]; exact List.mem_cons_of_mem e hm)
  · rw [hevents, List.map_cons, List.sum_cons]

/-- A session that was stopped has no events. -/
theorem Flow.open_of_event (h : s.Flow fmt opt) {e : StreamEvent} {rest : List StreamEvent}
    (hevents : s.pipe.session.events = e :: rest) : s.failed = false := by
  cases hf : s.failed with
  | false => rfl
  | true =>
      rw [(h.failed hf).2.1] at hevents
      exact absurd hevents (by simp)

/-- The pipe is announced for receiving. -/
theorem stepped_pipeIn (h : s.Flow fmt opt) {rest : List StreamEvent} {io : Io}
    (hevents : s.pipe.session.events = .pipeIn :: rest) : s.Stepped fmt opt (.deliver io) := by
  obtain ⟨cut, part, bodies, hcut, hin, harr⟩ := h.inbound
  have hp := h.popped hevents
  have hmem : StreamEvent.pipeIn ∈ s.pipe.session.events := by simp [hevents]
  have hopen := h.open_of_event hevents
  have hattached : s.attached = true := by rw [h.attached, hopen]; rfl
  have hdone := hp.others .done (by simp)
  cases hin with
  | hdr hstate hin hread => exact absurd hmem hread.pipeIn
  | body hstate hin hlen hsize hread => exact absurd hmem hread.pipeIn
  | refused hstate hlen hsize hquiet hnot hin hread => exact absurd hmem hin
  | hasmsg hstate hin hpipe hquiet hnot hoffer =>
      have hoff : s.readable = false := by
        rcases hoffer with ⟨-, hoff⟩ | ⟨hno, -⟩
        · exact hoff
        · exact absurd hmem hno
      refine ⟨{ s.setStream { s.pipe.session with events := rest } with readable := true }, ?_,
        ?_, fun _ => ⟨?_, rfl, rfl⟩⟩
      · simp only [next, hevents, deliver, setStream, hattached]
      · refine ⟨h.steady, hp.nodup, hp.plain, ⟨cut, _, _, hcut, .hasmsg hstate hin hpipe ?_ hnot
          (Or.inr ⟨hp.notin, rfl⟩), harr⟩, fun hf => (h.outbound hf).congr ?_, h.written,
          h.attached, hdone.trans h.ended, hp.last (by simp), ?_⟩
        · exact fun hm => hquiet ((hp.others _ (by simp)).mp hm)
        · exact ⟨rfl, ⟨rfl, id, id⟩, hp.others _ (by simp), hp.others _ (by simp), rfl, rfl, rfl⟩
        · intro hf
          exact absurd (hopen.symm.trans hf) (by simp)
      · have hw := hp.weight
        simp only [StreamEvent.weight] at hw
        simp only [measure, Stream.measure, setStream, hoff, Bool.toNat_true, Bool.toNat_false]
        omega

/-- The pipe is announced for sending. -/
theorem stepped_pipeOut (h : s.Flow fmt opt) {rest : List StreamEvent} {io : Io}
    (hevents : s.pipe.session.events = .pipeOut :: rest) :
    s.Stepped fmt opt (.deliver io) := by
  obtain ⟨cut, part, bodies, hcut, hin, harr⟩ := h.inbound
  have hp := h.popped hevents
  have hmem : StreamEvent.pipeOut ∈ s.pipe.session.events := by simp [hevents]
  have hopen := h.open_of_event hevents
  have hattached : s.attached = true := by rw [h.attached, hopen]; rfl
  have hdone := hp.others .done (by simp)
  cases h.outbound hopen with
  | sending hout hpipe hsent hwrite hpipeOut hrequest => exact absurd hmem hpipeOut
  | idle hout hpipe hnot hquiet hoffer =>
      refine ⟨{ s.setStream { s.pipe.session with events := rest } with writable := true }, ?_,
        ?_, fun _ => ⟨?_, rfl, rfl⟩⟩
      · simp only [next, hevents, deliver, setStream, hattached]
      · refine ⟨h.steady, hp.nodup, hp.plain, ⟨cut, _, _, hcut, hin.congr ?_, harr⟩,
          fun hf => .idle hout hpipe hnot ?_ (Or.inr ⟨hp.notin, rfl⟩), h.written,
          h.attached, hdone.trans h.ended, hp.last (by simp), ?_⟩
        · exact ⟨rfl, rfl, rfl, rfl, ⟨rfl, rfl, rfl, id, id⟩, hp.others _ (by simp),
            hp.others _ (by simp), rfl, rfl, rfl⟩
        · exact fun hm => hquiet ((hp.others _ (by simp)).mp hm)
        · intro hf
          exact absurd (hopen.symm.trans hf) (by simp)
      · have hw := hp.weight
        simp only [StreamEvent.weight] at hw
        simp only [measure, Stream.measure, setStream]
        omega

/-- The owner is told of the end of the session. -/
theorem stepped_done (h : s.Flow fmt opt) {rest : List StreamEvent} {io : Io}
    (hevents : s.pipe.session.events = .done :: rest) : s.Stepped fmt opt (.deliver io) := by
  obtain ⟨cut, part, bodies, hcut, hin, harr⟩ := h.inbound
  have hp := h.popped hevents
  have hmem : StreamEvent.done ∈ s.pipe.session.events := by simp [hevents]
  have hstate := (h.ended.mp hmem).1
  -- it was the last event
  have hrest : rest = [] := by
    cases rest with
    | nil => rfl
    | cons e rest =>
        have hlast := h.last hmem
        rw [hevents, List.getLast?_cons_cons] at hlast
        exact absurd (List.mem_of_getLast? hlast) hp.notin
  subst hrest
  refine ⟨{ (s.setStream { s.pipe.session with events := [] }).pipeStop with failed := true },
    ?_, ?_, fun _ => ⟨?_, rfl, rfl⟩⟩
  · simp only [next, hevents, deliver]
  · refine ⟨h.steady, hp.nodup, hp.plain, ⟨cut, _, _, hcut, hin.congr ?_, harr⟩, ?_, h.written,
      rfl, ?_, ?_, fun _ => ⟨hstate, rfl, rfl⟩⟩
    · refine ⟨rfl, rfl, rfl, rfl, ⟨rfl, rfl, rfl, id, id⟩, hp.others _ (by simp),
        hp.others _ (by simp), rfl, ?_, rfl⟩
      cases hin with
      | hdr hactive hin hread | body hactive hin hlen hsize hread
      | hasmsg hactive hin hpipe hquiet hnot hoffer =>
          rw [hstate] at hactive
          exact absurd hactive (by simp)
      | refused hstate hlen hsize hquiet hnot hin hread => exact hread.symm
    · intro hf
      exact absurd hf (by simp)
    · simp [pipeStop, setStream]
    · intro hm
      exact absurd hm hp.notin
  · have hw := hp.weight
    simp only [StreamEvent.weight] at hw
    simp only [measure, Stream.measure, setStream, pipeStop, Bool.toNat_false]
    omega

/-- A message has left. -/
theorem stepped_sent (h : s.Flow fmt opt) {rest : List StreamEvent} {io : Io}
    (hevents : s.pipe.session.events = .usock .sent :: rest)
    (hactive : s.pipe.session.state = .active) : s.Stepped fmt opt (.deliver io) := by
  obtain ⟨cut, part, bodies, hcut, hin, harr⟩ := h.inbound
  have hp := h.popped hevents
  have hmem : StreamEvent.usock .sent ∈ s.pipe.session.events := by simp [hevents]
  have hopen := h.open_of_event hevents
  have hnodone : StreamEvent.done ∉ rest := by
    intro hm
    have hstate := (h.ended.mp ((hp.others _ (by simp)).mp hm)).1
    rw [hactive] at hstate
    exact absurd hstate (by simp)
  cases h.outbound hopen with
  | idle hout hpipe hnot hquiet hoffer => exact absurd hmem hquiet
  | sending hout hpipe hsent hwrite hpipeOut hrequest =>
      have hnot := (hrequest.resolve_right fun hr => hr.1 hmem).2
      have hnew : StreamEvent.pipeOut ∉ rest :=
        fun hm => hpipeOut ((hp.others _ (by simp)).mp hm)
      have hq := queued_raise hp.nodup hp.plain (Or.inr (Or.inr (Or.inr (Or.inl rfl)))) hnew
      have hothers : ∀ e', e' ≠ .pipeOut → e' ≠ .usock .sent →
          (e' ∈ rest ++ [.pipeOut] ↔ e' ∈ s.pipe.session.events) :=
        fun e' h1 h2 => (hq.others e' h1).trans (hp.others e' h2)
      refine ⟨{ s with pipe := { s.pipe with
        outstate := .idle
        session := { s.pipe.session with
          events := rest ++ [.pipeOut], outstate := .idle, outmsg := {} } } }, ?_, ?_,
        fun _ => ⟨?_, rfl, rfl⟩⟩
      · have hcall := pipeSent_async (s := s.setStream { s.pipe.session with
          events := rest, outstate := .idle, outmsg := {} }) hp.plain hpipe hnew
        simp only [next, hevents, deliver, handler, activeHandler, setStream, hactive, hout,
          gridAssert_pos, ok_bind] at hcall ⊢
        exact hcall
      · refine ⟨h.steady, hq.nodup, hq.plain, ⟨cut, _, _, hcut, hin.congr ?_, harr⟩,
          fun hf => .idle rfl rfl hnot ?_ (Or.inl ⟨by simp, hwrite⟩), h.written, h.attached,
          (hothers _ (by simp) (by simp)).trans h.ended, ?_, ?_⟩
        · exact ⟨rfl, rfl, rfl, rfl, ⟨rfl, rfl, rfl, id, id⟩, hothers _ (by simp) (by simp),
            hothers _ (by simp) (by simp), rfl, rfl, rfl⟩
        · intro hm
          exact hp.notin ((hq.others _ (by simp)).mp hm)
        · intro hm
          exact absurd ((hq.others _ (by simp)).mp hm) hnodone
        · intro hf
          exact absurd (hopen.symm.trans hf) (by simp)
      · have hw := hp.weight
        simp only [StreamEvent.weight] at hw
        simp only [measure, Stream.measure, measure_raise, StreamEvent.weight]
        omega

/-! ## Received bytes -/

/-- An active session has not raised the event of its end. -/
theorem Flow.no_done (h : s.Flow fmt opt) (hactive : s.pipe.session.state = .active) :
    StreamEvent.done ∉ s.pipe.session.events := by
  intro hm
  have hstate := (h.ended.mp hm).1
  rw [hactive] at hstate
  exact absurd hstate (by simp)

/-- The session in which a message has become complete. -/
def complete (s : Session) (rest : List StreamEvent) (inhdr inmsg : List UInt8) : Session :=
  { s with pipe := { s.pipe with
    instate := .idle
    session := { s.pipe.session with
      events := rest ++ [.pipeIn], instate := .hasmsg, inhdr := inhdr, inmsg := inmsg } } }

theorem flow_complete (inhdr : List UInt8) (h : s.Flow fmt opt) {rest : List StreamEvent}
    {want : Nat} {cut inmsg : List UInt8}
    (hevents : s.pipe.session.events = .usock .received :: rest)
    (hactive : s.pipe.session.state = .active) (hread : s.Reading want)
    (hcut : (fmt.framing opt).Frames cut (s.delivered ++ [inmsg]))
    (harr : s.arrived = cut ++ (s.pipe.session.usock.batch ++ s.pipe.session.wire)) :
    (s.complete rest inhdr inmsg).Flow fmt opt ∧
      (s.complete rest inhdr inmsg).measure < s.measure := by
  have hp := h.popped hevents
  have hopen := h.open_of_event hevents
  have hmem : StreamEvent.usock .received ∈ s.pipe.session.events := by simp [hevents]
  have hnot := (hread.request.resolve_right fun hr => hr.1 hmem).2
  have hnew : StreamEvent.pipeIn ∉ rest :=
    fun hm => hread.pipeIn ((hp.others _ (by simp)).mp hm)
  have hq := queued_raise hp.nodup hp.plain (Or.inr (Or.inr (Or.inl rfl))) hnew
  have hothers : ∀ e', e' ≠ .pipeIn → e' ≠ .usock .received →
      (e' ∈ rest ++ [.pipeIn] ↔ e' ∈ s.pipe.session.events) :=
    fun e' h1 h2 => (hq.others e' h1).trans (hp.others e' h2)
  have hdone := hothers .done (by simp) (by simp)
  refine ⟨⟨h.steady, hq.nodup, hq.plain, ⟨cut, [], _, hcut, .hasmsg hactive rfl rfl ?_ hnot
    (Or.inl ⟨by simp [complete], hread.readable⟩), ?_⟩, fun hf => (h.outbound hf).congr ?_,
    h.written, h.attached, hdone.trans h.ended, ?_, ?_⟩, ?_⟩
  · intro hm
    exact hp.notin ((hq.others _ (by simp)).mp hm)
  · rw [List.append_nil]
    exact harr
  · exact ⟨rfl, ⟨rfl, id, id⟩, hothers _ (by simp) (by simp), hothers _ (by simp) (by simp), rfl,
      rfl, rfl⟩
  · exact fun hm => absurd (hdone.mp hm) (h.no_done hactive)
  · intro hf
    exact absurd (hopen.symm.trans hf) (by simp)
  · have hw := hp.weight
    simp only [StreamEvent.weight] at hw
    simp only [measure, Stream.measure, complete, measure_raise, StreamEvent.weight]
    omega

/-- A body has come in. -/
theorem stepped_body (h : s.Flow fmt opt) {rest : List StreamEvent} {io : Io} {n : Nat}
    {cut : List UInt8} (hevents : s.pipe.session.events = .usock .received :: rest)
    (hactive : s.pipe.session.state = .active) (hin : s.pipe.session.instate = .body)
    (hlen : s.pipe.session.inhdr.length = (fmt.framing opt).hdrLen)
    (hsize : (fmt.framing opt).size s.pipe.session.inhdr = .ok n) (hread : s.Reading n)
    (hcut : (fmt.framing opt).Frames cut s.delivered)
    (harr : s.arrived = cut ++ (s.pipe.session.inhdr ++ s.pipe.session.usock.inBuf) ++
      (s.pipe.session.usock.batch ++ s.pipe.session.wire)) :
    s.Stepped fmt opt (.deliver io) := by
  have hp := h.popped hevents
  have hmem : StreamEvent.usock .received ∈ s.pipe.session.events := by simp [hevents]
  have hnot := (hread.request.resolve_right fun hr => hr.1 hmem).2
  have hframe : (fmt.framing opt).IsFrame s.pipe.session.inhdr s.pipe.session.usock.inBuf := by
    refine ⟨hlen, ?_⟩
    rw [hsize, ← hread.length, hnot.inLen, Nat.add_zero]
  obtain ⟨hflow, hmeasure⟩ := flow_complete s.pipe.session.inhdr h hevents hactive
    hread (hcut.snoc hframe) harr
  refine ⟨_, ?_, hflow, fun _ => ⟨hmeasure, rfl, rfl⟩⟩
  have hcall := pipeReceived_async (s := s.setStream { s.pipe.session with
    events := rest, instate := .hasmsg, inmsg := s.pipe.session.usock.inBuf }) hp.plain
    hread.instate fun hm => hread.pipeIn ((hp.others _ (by simp)).mp hm)
  simp only [next, hevents, deliver, handler, activeHandler, setStream, hactive, hin,
    complete] at hcall ⊢
  exact hcall

/-- How a header is read that does not end the process. -/
theorem size_eq_none {hdr : List UInt8} (h : (fmt.framing opt).size hdr = .error none) :
    fmt.checkHdr opt hdr = .ok none := by
  simp only [WireFormat.framing] at h
  split at h
  · exact absurd (Except.error.inj h) (by simp)
  · rename_i hcheck
    exact hcheck
  · split at h
    · exact absurd (Except.error.inj h) (by simp)
    · exact absurd h (by simp)

theorem size_eq_ok {hdr : List UInt8} {n : Nat} (h : (fmt.framing opt).size hdr = .ok n) :
    fmt.checkHdr opt hdr = .ok (some n) ∧ chunkrefInit n = .ok () := by
  simp only [WireFormat.framing] at h
  split at h
  · exact absurd h (by simp)
  · exact absurd h (by simp)
  · rename_i size hcheck
    split at h
    · exact absurd h (by simp)
    · rename_i u hinit
      obtain rfl := Except.ok.inj h
      exact ⟨hcheck, hinit⟩

/-- A header has come in that drops the connection. -/
theorem stepped_refused (h : s.Flow fmt opt) {rest : List StreamEvent} {io : Io}
    {cut : List UInt8} (hevents : s.pipe.session.events = .usock .received :: rest)
    (hactive : s.pipe.session.state = .active) (hin : s.pipe.session.instate = .hdr)
    (hread : s.Reading (fmt.framing opt).hdrLen)
    (hsize : (fmt.framing opt).size s.pipe.session.usock.inBuf = .error none)
    (hcut : (fmt.framing opt).Frames cut s.delivered)
    (harr : s.arrived = cut ++ s.pipe.session.usock.inBuf ++
      (s.pipe.session.usock.batch ++ s.pipe.session.wire)) :
    s.Stepped fmt opt (.deliver io) := by
  have hp := h.popped hevents
  have hopen := h.open_of_event hevents
  have hmem : StreamEvent.usock .received ∈ s.pipe.session.events := by simp [hevents]
  have hnot := (hread.request.resolve_right fun hr => hr.1 hmem).2
  have hlen : s.pipe.session.usock.inBuf.length = (fmt.framing opt).hdrLen := by
    rw [← hread.length, hnot.inLen, Nat.add_zero]
  have hnew : StreamEvent.done ∉ rest :=
    fun hm => h.no_done hactive ((hp.others _ (by simp)).mp hm)
  have hdonePlain : Plain .done := Or.inr (Or.inr (Or.inr (Or.inr rfl)))
  have hq := queued_raise hp.nodup hp.plain hdonePlain hnew
  have hothers : ∀ e', e' ≠ .done → e' ≠ .usock .received →
      (e' ∈ rest ++ [.done] ↔ e' ∈ s.pipe.session.events) :=
    fun e' h1 h2 => (hq.others e' h1).trans (hp.others e' h2)
  refine ⟨s.setStream { s.pipe.session with
    events := rest ++ [.done], inhdr := s.pipe.session.usock.inBuf, state := .done }, ?_, ?_,
    fun _ => ⟨?_, rfl, rfl⟩⟩
  · have hraise := raise_plain { s.pipe.session with
      events := rest, inhdr := s.pipe.session.usock.inBuf, state := .done } hp.plain hdonePlain
      hnew
    simp only [next, hevents, deliver, handler, activeHandler, setStream, hactive, hin,
      hdrReceived, size_eq_none hsize, ok_bind, fail] at hraise ⊢
    rw [hraise]
    rfl
  · refine ⟨h.steady, hq.nodup, hq.plain, ⟨cut, _, _, hcut, .refused rfl hlen hsize ?_ hnot ?_
      hread.readable, harr⟩, fun hf => (h.outbound hf).congr ?_, h.written, h.attached,
      ⟨fun _ => ⟨rfl, hopen⟩, fun _ => by simp [setStream]⟩, ?_, ?_⟩
    · intro hm
      exact hp.notin ((hq.others _ (by simp)).mp hm)
    · intro hm
      exact hread.pipeIn ((hothers _ (by simp) (by simp)).mp hm)
    · exact ⟨rfl, ⟨rfl, id, id⟩, hothers _ (by simp) (by simp), hothers _ (by simp) (by simp),
        rfl, rfl, rfl⟩
    · intro _
      simp [setStream]
    · intro hf
      exact absurd (hopen.symm.trans hf) (by simp)
  · have hw := hp.weight
    simp only [StreamEvent.weight] at hw
    simp only [measure, Stream.measure, setStream, measure_raise, StreamEvent.weight]
    omega

/-- A header has come in that announces a message. -/
theorem stepped_hdr (h : s.Flow fmt opt) {rest : List StreamEvent} {k n : Nat}
    {cut : List UInt8} (hevents : s.pipe.session.events = .usock .received :: rest)
    (hactive : s.pipe.session.state = .active) (hin : s.pipe.session.instate = .hdr)
    (hread : s.Reading (fmt.framing opt).hdrLen)
    (hsize : (fmt.framing opt).size s.pipe.session.usock.inBuf = .ok n)
    (hcut : (fmt.framing opt).Frames cut s.delivered)
    (harr : s.arrived = cut ++ s.pipe.session.usock.inBuf ++
      (s.pipe.session.usock.batch ++ s.pipe.session.wire)) :
    s.Stepped fmt opt (.deliver (.bytes k)) := by
  have hp := h.popped hevents
  have hopen := h.open_of_event hevents
  have hmem : StreamEvent.usock .received ∈ s.pipe.session.events := by simp [hevents]
  have hnot := (hread.request.resolve_right fun hr => hr.1 hmem).2
  have hlen : s.pipe.session.usock.inBuf.length = (fmt.framing opt).hdrLen := by
    rw [← hread.length, hnot.inLen, Nat.add_zero]
  obtain ⟨hcheck, hinit⟩ := size_eq_ok hsize
  by_cases hzero : n = 0
  · -- the message is empty
    subst hzero
    have hframe : (fmt.framing opt).IsFrame s.pipe.session.usock.inBuf [] := ⟨hlen, hsize⟩
    have hcut' := hcut.snoc hframe
    rw [List.append_nil] at hcut'
    obtain ⟨hflow, hmeasure⟩ := flow_complete s.pipe.session.usock.inBuf h hevents
      hactive hread hcut' harr
    refine ⟨_, ?_, hflow, fun _ => ⟨hmeasure, rfl, rfl⟩⟩
    have hcall := pipeReceived_async (s := s.setStream { s.pipe.session with
      events := rest, inhdr := s.pipe.session.usock.inBuf, inmsg := [], instate := .hasmsg })
      hp.plain hread.instate fun hm => hread.pipeIn ((hp.others _ (by simp)).mp hm)
    simp only [next, hevents, deliver, handler, activeHandler, setStream, hactive, hin,
      hdrReceived, hcheck, hinit, ok_bind, if_true, complete] at hcall ⊢
    exact hcall
  · -- the body is asked for
    have hnew : StreamEvent.usock .received ∉ rest := hp.notin
    obtain ⟨u, wire, events, hcall, hu, hsame, hgot, hdata, hq, hrequest, hle⟩ :=
      usockRecv_spec { s.pipe.session with
        events := rest, inhdr := s.pipe.session.usock.inBuf, instate := .body } h.steady hnot
        hp.nodup hp.plain hnew (Nat.pos_of_ne_zero hzero) k
    have hothers : ∀ e', e' ≠ .usock .received →
        (e' ∈ events ↔ e' ∈ s.pipe.session.events) :=
      fun e' hne => (hq.others e' hne).trans (hp.others e' hne)
    have hdone := hothers .done (by simp)
    refine ⟨s.setStream { s.pipe.session with
      usock := u, wire := wire, events := events, inhdr := s.pipe.session.usock.inBuf,
      instate := .body }, ?_, ?_, fun _ => ⟨?_, rfl, rfl⟩⟩
    · simp only [next, hevents, deliver, handler, activeHandler, setStream, hactive, hin,
        hdrReceived, hcheck, hinit, ok_bind, if_neg hzero] at hcall ⊢
      rw [hcall]
      rfl
    · refine ⟨hu, hq.nodup, hq.plain, ⟨cut, _, _, hcut, .body hactive rfl hlen hsize
        ⟨hread.instate, hread.readable, fun hm => hread.pipeIn ((hothers _ (by simp)).mp hm), hgot,
          hrequest⟩, ?_⟩, fun hf => (h.outbound hf).congr ?_, ?_, h.attached,
        hdone.trans h.ended, fun hm => absurd (hdone.mp hm) (h.no_done hactive), ?_⟩
      · change s.arrived = cut ++ (s.pipe.session.usock.inBuf ++ u.inBuf) ++ (u.batch ++ wire)
        simp only [List.append_assoc] at harr ⊢
        rw [hdata]
        exact harr
      · exact ⟨rfl, hsame, hothers _ (by simp), hothers _ (by simp), rfl, rfl, rfl⟩
      · simp only [setStream, hsame.out]
        exact h.written
      · intro hf
        exact absurd (hopen.symm.trans hf) (by simp)
    · have hw := hp.weight
      simp only [StreamEvent.weight] at hw
      simp only [measure, Stream.measure, setStream] at hle ⊢
      omega

/-- Bytes were received. -/
theorem stepped_received (h : s.Flow fmt opt) {rest : List StreamEvent} (k : Nat)
    (hevents : s.pipe.session.events = .usock .received :: rest) :
    s.Stepped fmt opt (.deliver (.bytes k)) ∨ s.Fault fmt opt (.deliver (.bytes k)) := by
  obtain ⟨cut, part, bodies, hcut, hin, harr⟩ := h.inbound
  have hmem : StreamEvent.usock .received ∈ s.pipe.session.events := by simp [hevents]
  cases hin with
  | hdr hstate hin hread =>
      cases hsize : (fmt.framing opt).size s.pipe.session.usock.inBuf with
      | ok n => exact Or.inl (stepped_hdr h hevents hstate hin hread hsize hcut harr)
      | error e =>
          cases e with
          | none => exact Or.inl (stepped_refused h hevents hstate hin hread hsize hcut harr)
          | some a => exact Or.inr (Or.inl ⟨rest, a, hevents, hstate, hin, hsize⟩)
  | body hstate hin hlen hsize hread =>
      exact Or.inl (stepped_body h hevents hstate hin hlen hsize hread hcut harr)
  | hasmsg hstate hin hpipe hquiet hnot hoffer => exact absurd hmem hquiet
  | refused hstate hlen hsize hquiet hnot hin hread => exact absurd hmem hquiet

/-! ## The socket -/

/-- The socket sends a message. -/
theorem stepped_send (h : s.Flow fmt opt) (msg : Msg) (n : Nat)
    (hen : s.Enabled (.send msg (.bytes n))) :
    s.Stepped fmt opt (.send msg (.bytes n)) ∨ s.Fault fmt opt (.send msg (.bytes n)) := by
  obtain ⟨cut, part, bodies, hcut, hin, harr⟩ := h.inbound
  have hwrite : s.writable = true := hen
  have hopen : s.failed = false := by
    cases hf : s.failed with
    | false => rfl
    | true =>
        rw [(h.failed hf).2.2] at hwrite
        exact absurd hwrite (by simp)
  cases hstate : s.pipe.session.state with
  | done => exact Or.inr hstate
  | shuttingDown =>
      -- only a broken connection leads there
      cases hin with
      | hdr hactive hin hread => exact absurd (hstate.symm.trans hactive) (by simp)
      | body hactive hin hlen hsize hread => exact absurd (hstate.symm.trans hactive) (by simp)
      | hasmsg hactive hin hpipe hquiet hnot hoffer =>
          exact absurd (hstate.symm.trans hactive) (by simp)
      | refused hdone hlen hsize hquiet hnot hin hread =>
          exact absurd (hstate.symm.trans hdone) (by simp)
  | active =>
      refine Or.inl ?_
      cases h.outbound hopen with
      | sending hout hpipe hsent hoff hpipeOut hrequest =>
          rw [hoff] at hwrite
          exact absurd hwrite (by simp)
      | idle hout hpipe hnot hquiet hoffer =>
          have hnoout : StreamEvent.pipeOut ∉ s.pipe.session.events := by
            rcases hoffer with ⟨-, hoff⟩ | ⟨hno, -⟩
            · rw [hoff] at hwrite
              exact absurd hwrite (by simp)
            · exact hno
          obtain ⟨u, written, events, hcall, hu, hsame, hdata, hq, hrequest⟩ :=
            usockSend_spec { s.pipe.session with outmsg := msg }
              [fmt.outhdr (msg.sphdr.length + msg.body.length), msg.sphdr, msg.body]
              h.steady hnot h.nodup h.plain hquiet (Nat.le_refl 3) n
          have hdone := hq.others .done (by simp)
          refine ⟨{ s with
            pipe := { s.pipe with
              outstate := .async
              session := { s.pipe.session with
                outmsg := msg, usock := u, written := written, events := events,
                outstate := .sending } }
            writable := false, sent := s.sent ++ [msg] }, ?_, ?_, fun hp => absurd hp.2.2 id⟩
          · simp only [next, Pipe.send, hpipe, gridAssert_pos, ok_bind, Stream.vfptr,
              Stream.send, hstate, hout] at hcall ⊢
            rw [hcall]
            rfl
          · refine ⟨hu, hq.nodup, hq.plain, ⟨cut, _, _, hcut, hin.congr ?_, ?_⟩,
              fun _ => .sending rfl rfl (by simp) rfl
                (fun hm => hnoout ((hq.others _ (by simp)).mp hm)) hrequest, ?_, h.attached,
              hdone.trans h.ended, fun hm => absurd (hdone.mp hm) (h.no_done hstate), ?_⟩
            · exact ⟨rfl, rfl, rfl, rfl, hsame, hq.others _ (by simp), hq.others _ (by simp),
                rfl, rfl, rfl⟩
            · simp only [hsame.batch]
              exact harr
            · have hold := h.written
              rw [hnot.out, List.flatten_nil, List.append_nil] at hold
              change written ++ u.out.flatten = _
              rw [hdata, List.map_append, List.flatten_append, ← hold]
              simp [WireFormat.frame, Msg.wire]
            · intro hf
              exact absurd (hopen.symm.trans hf) (by simp)

/-- The socket receives a message. -/
theorem stepped_recv (h : s.Flow fmt opt) (hhdr : 0 < fmt.hdrLen) (n : Nat)
    (hen : s.Enabled (.recv (.bytes n))) : s.Stepped fmt opt (.recv (.bytes n)) := by
  obtain ⟨cut, part, bodies, hcut, hin, harr⟩ := h.inbound
  have hreadable : s.readable = true := hen
  cases hin with
  | hdr hstate hin hread =>
      rw [hread.readable] at hreadable
      exact absurd hreadable (by simp)
  | body hstate hin hlen hsize hread =>
      rw [hread.readable] at hreadable
      exact absurd hreadable (by simp)
  | refused hstate hlen hsize hquiet hnot hin hread =>
      rw [hread] at hreadable
      exact absurd hreadable (by simp)
  | hasmsg hactive hin hpipe hquiet hnot hoffer =>
      have hnoin : StreamEvent.pipeIn ∉ s.pipe.session.events := by
        rcases hoffer with ⟨-, hoff⟩ | ⟨hno, -⟩
        · rw [hoff] at hreadable
          exact absurd hreadable (by simp)
        · exact hno
      obtain ⟨u, wire, events, hcall, hu, hsame, hgot, hdata, hq, hrequest, hle⟩ :=
        usockRecv_spec { s.pipe.session with inmsg := [], instate := .hdr } h.steady
          hnot h.nodup h.plain hquiet hhdr n
      have hdone := hq.others .done (by simp)
      refine ⟨{ s with
        pipe := { s.pipe with
          instate := .async
          session := { s.pipe.session with
            inmsg := [], instate := .hdr, usock := u, wire := wire, events := events } }
        readable := false, delivered := s.delivered ++ [s.pipe.session.inmsg] }, ?_, ?_,
        fun _ => ⟨?_, rfl, rfl⟩⟩
      · simp only [next, Pipe.recv, hpipe, gridAssert_pos, ok_bind, Stream.vfptr, Stream.recv,
          hactive, hin] at hcall ⊢
        rw [hcall]
        rfl
      · refine ⟨hu, hq.nodup, hq.plain, ⟨cut, _, _, hcut, .hdr hactive rfl
          ⟨rfl, rfl, fun hm => hnoin ((hq.others _ (by simp)).mp hm), hgot, hrequest⟩, ?_⟩,
          fun hf => (h.outbound hf).congr ?_, ?_, h.attached, hdone.trans h.ended,
          fun hm => absurd (hdone.mp hm) (h.no_done hactive), ?_⟩
        · change s.arrived = cut ++ u.inBuf ++ (u.batch ++ wire)
          rw [List.append_assoc, hdata, harr, List.append_nil]
        · exact ⟨rfl, hsame, hq.others _ (by simp), hq.others _ (by simp), rfl, rfl, rfl⟩
        · simp only [hsame.out]
          exact h.written
        · intro hf
          have hstate := (h.failed hf).1
          rw [hactive] at hstate
          exact absurd hstate (by simp)
      · simp only [measure, Stream.measure, hreadable, Bool.toNat_true, Bool.toNat_false] at hle ⊢
        omega

end GridMq.Transports.Session
