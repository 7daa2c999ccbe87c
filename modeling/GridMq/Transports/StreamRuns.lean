import GridMq.Transports.StreamSteps

set_option autoImplicit false

/-!
# Runs of a session while the connection holds

In every reachable state the messages delivered are the first ones of the frames that
have arrived, and the bytes written the first ones of the frames that were sent.  A
session that has come to rest has delivered all of them.
-/

namespace GridMq.Transports.Session

open GridMq.Aio GridMq.Core GridMq.Library

variable {fmt : WireFormat} {opt : Int} {s s' : Session} {l : Label}

/-- Every step that can be taken is one of the steps above. -/
theorem stepped_or_fault (h : s.Flow fmt opt) (hhdr : 0 < fmt.hdrLen) (hl : l.Holds)
    (hen : s.Enabled l) : s.Stepped fmt opt l ∨ s.Fault fmt opt l := by
  cases l with
  | arrive bytes => exact Or.inl (stepped_arrive h bytes)
  | workerTask => exact Or.inl (stepped_workerTask h hen)
  | fdErr => exact absurd hl id
  | fdIn io =>
      obtain ⟨n, rfl⟩ := exists_bytes hl
      exact Or.inl (stepped_fdIn h n hen)
  | fdOut io =>
      obtain ⟨n, rfl⟩ := exists_bytes hl
      exact Or.inl (stepped_fdOut h n hen)
  | send msg io =>
      obtain ⟨n, rfl⟩ := exists_bytes hl
      exact stepped_send h msg n hen
  | recv io =>
      obtain ⟨n, rfl⟩ := exists_bytes hl
      exact Or.inl (stepped_recv h hhdr n hen)
  | deliver io =>
      obtain ⟨n, rfl⟩ := exists_bytes hl
      obtain ⟨e, rest, hevents⟩ := List.exists_cons_of_ne_nil hen
      rcases h.plain e (by rw [hevents]; exact List.mem_cons_self) with
        rfl | rfl | rfl | rfl | rfl
      · -- only a session that has ended or is active has a flow
        cases hstate : s.pipe.session.state with
        | active => exact Or.inl (stepped_sent h hevents hstate)
        | done => exact Or.inr (Or.inr ⟨rest, hevents, hstate⟩)
        | shuttingDown =>
            obtain ⟨cut, part, bodies, -, hin, -⟩ := h.inbound
            cases hin with
            | hdr hactive hin hread => exact absurd (hstate.symm.trans hactive) (by simp)
            | body hactive hin hlen hsize hread =>
                exact absurd (hstate.symm.trans hactive) (by simp)
            | hasmsg hactive hin hpipe hquiet hnot hoffer =>
                exact absurd (hstate.symm.trans hactive) (by simp)
            | refused hdone hlen hsize hquiet hnot hin hread =>
                exact absurd (hstate.symm.trans hdone) (by simp)
      · exact stepped_received h n hevents
      · exact Or.inl (stepped_pipeIn h hevents)
      · exact Or.inl (stepped_pipeOut h hevents)
      · exact Or.inl (stepped_done h hevents)

/-- A header that ends the process does. -/
theorem size_eq_abort {hdr : List UInt8} {a : Abort}
    (h : (fmt.framing opt).size hdr = .error (some a)) :
    fmt.checkHdr opt hdr = .error a ∨
      ∃ n, fmt.checkHdr opt hdr = .ok (some n) ∧ chunkrefInit n = .error a := by
  simp only [WireFormat.framing] at h
  split at h
  · rename_i a' hcheck
    have ha := Option.some.inj (Except.error.inj h)
    exact Or.inl (ha ▸ hcheck)
  · exact absurd (Except.error.inj h) (by simp)
  · rename_i size hcheck
    split at h
    · rename_i a' hinit
      have ha := Option.some.inj (Except.error.inj h)
      exact Or.inr ⟨size, hcheck, ha ▸ hinit⟩
    · exact absurd h (by simp)

theorem fault_error (h : s.Fault fmt opt l) : ∃ a, s.next fmt opt l = .error a := by
  cases l with
  | send msg io =>
      have hstate : s.pipe.session.state = .done := h
      by_cases hout : s.pipe.outstate = .idle
      · refine ⟨.assertion, ?_⟩
        simp only [next, Pipe.send, hout, gridAssert_pos, ok_bind, Stream.vfptr, Stream.send,
          hstate]
        rfl
      · refine ⟨.assertion, ?_⟩
        simp only [next, Pipe.send, gridAssert, if_neg hout, error_bind]
  | deliver io =>
      rcases h with ⟨rest, a, hevents, hactive, hin, hsize⟩ | ⟨rest, hevents, hstate⟩
      · refine ⟨a, ?_⟩
        rcases size_eq_abort hsize with hcheck | ⟨n, hcheck, hinit⟩
        · simp only [next, hevents, deliver, handler, activeHandler, setStream, hactive, hin,
            hdrReceived, hcheck, error_bind]
        · simp only [next, hevents, deliver, handler, activeHandler, setStream, hactive, hin,
            hdrReceived, hcheck, ok_bind, hinit, error_bind]
      · exact ⟨.badSource, by simp only [next, hevents, deliver, handler, setStream, hstate]⟩
  | arrive bytes => exact absurd h id
  | workerTask => exact absurd h id
  | fdIn io => exact absurd h id
  | fdOut io => exact absurd h id
  | fdErr => exact absurd h id
  | recv io => exact absurd h id

/-- What a step that can be taken and does not end the process keeps. -/
theorem Flow.step (h : s.Flow fmt opt) (hhdr : 0 < fmt.hdrLen)
    (hstep : (flowing fmt opt).step s l s') :
    s'.Flow fmt opt ∧ (s.Productive l → Progress s s') := by
  obtain ⟨hl, hen, hnext⟩ := hstep
  rcases stepped_or_fault h hhdr hl hen with ⟨s'', hcall, hflow, hprogress⟩ | hfault
  · obtain rfl := Except.ok.inj (hcall.symm.trans hnext)
    exact ⟨hflow, hprogress⟩
  · obtain ⟨a, herror⟩ := fault_error hfault
    rw [hnext] at herror
    exact absurd herror (by simp)

/-- A session begins with a flow. -/
theorem flow_start (batch wire : List UInt8) {n : Nat} (hhdr : 0 < fmt.hdrLen) :
    ∃ s, start fmt batch wire (.bytes n) = .ok s ∧ s.Flow fmt opt ∧
      s.arrived = batch ++ wire ∧ s.sent = [] := by
  have hplain : ∀ e ∈ [StreamEvent.pipeOut], Plain e := by
    intro e he
    rw [List.mem_singleton.mp he]
    exact Or.inr (Or.inr (Or.inr (Or.inl rfl)))
  obtain ⟨u, wire', events, hcall, hu, hsame, hgot, hdata, hq, hrequest, -⟩ :=
    usockRecv_spec {
      usock := { Usock.connected with batch := batch }, events := [.pipeOut], wire := wire }
      (Usock.steady_connected batch) ⟨by simp [Usock.connected], rfl, rfl⟩ (by simp) hplain
      (by simp) hhdr n
  have hmem : StreamEvent.pipeOut ∈ events := (hq.others _ (by simp)).mpr (by simp)
  have hnodone : StreamEvent.done ∉ events := fun hm => by
    simpa using (hq.others _ (by simp)).mp hm
  refine ⟨{
    pipe := {
      instate := .async, outstate := .idle, sndprio := 8, rcvprio := 8
      session := { usock := u, wire := wire', events := events } }
    arrived := batch ++ wire }, ?_, ?_, rfl, rfl⟩
  · have hraise : ({ usock := { Usock.connected with batch := batch }, wire := wire } :
        Stream).raise .pipeOut = .ok {
          usock := { Usock.connected with batch := batch }, events := [.pipeOut],
          wire := wire } := by
      simp [Stream.raise]
    simp only [start, Pipe.start, hraise, ok_bind, hcall, pure_eq_ok]
  · refine ⟨hu, hq.nodup, hq.plain, ⟨[], _, _, .nil, .hdr rfl rfl ⟨rfl, rfl, ?_, hgot,
      hrequest⟩, ?_⟩, fun _ => .idle rfl rfl ?_ ?_ (Or.inl ⟨hmem, rfl⟩), ?_, rfl, ?_, ?_, ?_⟩
    · exact fun hm => by simpa using (hq.others _ (by simp)).mp hm
    · exact hdata.symm
    · exact hsame.notSending ⟨by simp [Usock.connected], rfl, rfl⟩
    · exact fun hm => by simpa using (hq.others _ (by simp)).mp hm
    · simp [hsame.out, Usock.connected]
    · exact ⟨fun hm => absurd hm hnodone, fun h => absurd h.1 (by simp)⟩
    · exact fun hm => absurd hm hnodone
    · exact fun h => absurd h (by simp)

theorem flow_of_reachable (hhdr : 0 < fmt.hdrLen) (hs : (flowing fmt opt).Reachable s) :
    s.Flow fmt opt := by
  refine hs.invariant ?_ ?_
  · rintro s ⟨batch, wire, n, hstart⟩
    obtain ⟨s', hcall, hflow, -⟩ := flow_start batch wire
      (n := n) hhdr
    obtain rfl := Except.ok.inj (hcall.symm.trans hstart)
    exact hflow
  · intro s l s' _ h hstep
    exact (h.step hhdr hstep).1

/-! ## What arrives is what is delivered -/

section Arrived

variable {cut rest unread : List UInt8} {bodies : List (List UInt8)}

/-- The messages delivered are the first ones of what arrives. -/
theorem Flow.delivered_le (h : s.Flow fmt opt) (hcut : (fmt.framing opt).Frames cut bodies)
    (hrest : (fmt.framing opt).NoFrame rest) (harr : s.arrived ++ unread = cut ++ rest) :
    s.delivered <+: bodies := by
  obtain ⟨cut', part, bodies', hcut', hin, harr'⟩ := h.inbound
  rw [harr', List.append_assoc cut'] at harr
  obtain ⟨left, hleft⟩ := hcut'.bodies_le hcut hrest harr
  have hle : s.delivered <+: bodies' := by
    cases hin with
    | hdr hstate hin hread => exact List.prefix_rfl
    | body hstate hin hlen hsize hread => exact List.prefix_rfl
    | hasmsg hstate hin hpipe hquiet hnot hoffer => exact List.prefix_append _ _
    | refused hstate hlen hsize hquiet hnot hin hread => exact List.prefix_rfl
  rw [hleft]
  exact hle.trans (List.prefix_append _ _)

/-- A header that stands where the session has come to and begins no frame is the one that
stands behind all frames. -/
theorem rest_of_hdr {cut' hdr tail : List UInt8} {bodies' : List (List UInt8)} {e : Option Abort}
    (hcut' : (fmt.framing opt).Frames cut' bodies')
    (hlen : hdr.length = (fmt.framing opt).hdrLen) (hsize : (fmt.framing opt).size hdr = .error e)
    (hcut : (fmt.framing opt).Frames cut bodies) (hrest : (fmt.framing opt).NoFrame rest)
    (harr : cut' ++ (hdr ++ tail) = cut ++ rest) : rest = hdr ++ tail :=
  (hcut'.unique hcut (Library.Framing.noFrame_of_error _ hlen hsize) hrest harr).2.2.symm

/-- The process ends at a header only if that header stands behind all frames. -/
theorem Flow.fault_hdr (h : s.Flow fmt opt) {io : Io}
    (hactive : s.pipe.session.state = .active) (hfault : s.Fault fmt opt (.deliver io))
    (hcut : (fmt.framing opt).Frames cut bodies) (hrest : (fmt.framing opt).NoFrame rest)
    (harr : s.arrived ++ unread = cut ++ rest) :
    ∃ hdr tail a, rest = hdr ++ tail ∧ hdr.length = fmt.hdrLen ∧
      (fmt.framing opt).size hdr = .error (some a) := by
  rcases hfault with ⟨events, a, hevents, -, hinstate, hsize⟩ | ⟨events, -, hdone⟩
  · obtain ⟨cut', part, bodies', hcut', hin, harr'⟩ := h.inbound
    have hmem : StreamEvent.usock .received ∈ s.pipe.session.events := by simp [hevents]
    cases hin with
    | hdr hstate hin hread =>
        have hnot := (hread.request.resolve_right fun hr => hr.1 hmem).2
        have hlen : s.pipe.session.usock.inBuf.length = (fmt.framing opt).hdrLen := by
          rw [← hread.length, hnot.inLen, Nat.add_zero]
        rw [harr'] at harr
        simp only [List.append_assoc] at harr
        exact ⟨_, _, a, rest_of_hdr hcut' hlen hsize hcut hrest harr, hlen, hsize⟩
    | body hstate hin hlen hsize hread => exact absurd (hinstate.symm.trans hin) (by simp)
    | hasmsg hstate hin hpipe hquiet hnot hoffer =>
        exact absurd (hinstate.symm.trans hin) (by simp)
    | refused hstate hlen hsize hquiet hnot hin hread => exact absurd hmem hquiet
  · rw [hactive] at hdone
    exact absurd hdone (by simp)

/-- The session ends at a header only if that header stands behind all frames. -/
theorem Flow.done_hdr (h : s.Flow fmt opt) (hdone : s.pipe.session.state = .done)
    (hcut : (fmt.framing opt).Frames cut bodies) (hrest : (fmt.framing opt).NoFrame rest)
    (harr : s.arrived ++ unread = cut ++ rest) :
    ∃ hdr tail, rest = hdr ++ tail ∧ hdr.length = fmt.hdrLen ∧
      (fmt.framing opt).size hdr = .error none := by
  obtain ⟨cut', part, bodies', hcut', hin, harr'⟩ := h.inbound
  cases hin with
  | hdr hstate hin hread => exact absurd (hdone.symm.trans hstate) (by simp)
  | body hstate hin hlen hsize hread => exact absurd (hdone.symm.trans hstate) (by simp)
  | hasmsg hstate hin hpipe hquiet hnot hoffer =>
      exact absurd (hdone.symm.trans hstate) (by simp)
  | refused hstate hlen hsize hquiet hnot hin hread =>
      rw [harr'] at harr
      simp only [List.append_assoc] at harr
      exact ⟨_, _, rest_of_hdr hcut' hlen hsize hcut hrest harr, hlen, hsize⟩

end Arrived

/-- A session is active or has been ended by a header. -/
theorem Flow.active_or_done (h : s.Flow fmt opt) :
    s.pipe.session.state = .active ∨ s.pipe.session.state = .done := by
  obtain ⟨cut, part, bodies, -, hin, -⟩ := h.inbound
  cases hin with
  | hdr hstate hin hread => exact Or.inl hstate
  | body hstate hin hlen hsize hread => exact Or.inl hstate
  | hasmsg hstate hin hpipe hquiet hnot hoffer => exact Or.inl hstate
  | refused hstate hlen hsize hquiet hnot hin hread => exact Or.inr hstate

/-! ## Sessions at rest -/

/-- What a session at rest has read behind the messages it delivered. -/
inductive AtRest (F : Framing UInt8 (Option Abort)) (s : Session) (part : List UInt8) : Prop where
  /-- the rest of a header is awaited -/
  | hdr (hopen : s.failed = false) (hpart : part.length < F.hdrLen)
  /-- the rest of a body is awaited -/
  | body (hopen : s.failed = false) {hdr body : List UInt8} {n : Nat}
      (hpart : part = hdr ++ body) (hlen : hdr.length = F.hdrLen) (hsize : F.size hdr = .ok n)
      (hbody : body.length < n)
  /-- a header has ended the session -/
  | refused (hfailed : s.failed = true) {hdr tail : List UInt8} (hpart : part = hdr ++ tail)
      (hlen : hdr.length = F.hdrLen) (hsize : F.size hdr = .error none)

theorem AtRest.noFrame {F : Framing UInt8 (Option Abort)} {part : List UInt8}
    (h : AtRest F s part) : F.NoFrame part := by
  cases h with
  | hdr hopen hpart => exact Library.Framing.noFrame_of_short hpart
  | body hopen hpart hlen hsize hbody =>
      rw [hpart]
      exact Library.Framing.noFrame_of_size hlen hsize hbody
  | refused hfailed hpart hlen hsize =>
      rw [hpart]
      exact Library.Framing.noFrame_of_error _ hlen hsize

/-- A session at rest has delivered every message that has arrived in full. -/
theorem Flow.quiet (h : s.Flow fmt opt) (hq : s.Quiet) :
    ∃ cut part, (fmt.framing opt).Frames cut s.delivered ∧ s.arrived = cut ++ part ∧
      AtRest (fmt.framing opt) s part := by
  obtain ⟨cut, part, bodies, hcut, hin, harr⟩ := h.inbound
  have hevents : s.pipe.session.events = [] := by
    by_contra hne
    exact hq (.deliver (.bytes 0)) ⟨by simp [Label.Holds], hne, trivial⟩
  have hread : s.readable = false := by
    cases hr : s.readable with
    | false => rfl
    | true => exact absurd ⟨by simp [Label.Holds], hr, trivial⟩ (hq (.recv (.bytes 0)))
  -- an open receive has read all there is
  have hreceiving : s.failed = false → s.pipe.session.usock.Receiving →
      s.pipe.session.usock.batch = [] ∧ s.pipe.session.wire = [] := by
    intro hopen hrec
    have htasks : s.pipe.session.usock.tasks = [] := by
      by_contra hne
      exact hq .workerTask ⟨trivial, ⟨hopen, hevents, hne⟩, trivial⟩
    have hpoll : s.pipe.session.usock.pollIn = true := by
      rcases hrec.worker with ⟨hmem, -⟩ | ⟨-, hpoll⟩
      · rw [htasks] at hmem
        exact absurd hmem (by simp)
      · exact hpoll
    refine ⟨hrec.batch, ?_⟩
    by_contra hne
    exact hq (.fdIn (.bytes 1)) ⟨by simp [Label.Holds], ⟨hopen, hevents, hpoll⟩, by simp, hne⟩
  have hquiet : ∀ want, Reading s want → s.pipe.session.usock.Receiving := by
    intro want hreading
    rcases hreading.request with ⟨hmem, -⟩ | ⟨-, hrec⟩
    · rw [hevents] at hmem
      exact absurd hmem (by simp)
    · exact hrec
  have hopen : s.pipe.session.state = .active → s.failed = false := by
    intro hactive
    cases hf : s.failed with
    | false => rfl
    | true => exact absurd (hactive.symm.trans (h.failed hf).1) (by simp)
  cases hin with
  | hdr hstate hin hreading =>
      have hrec := hquiet _ hreading
      obtain ⟨hbatch, hwire⟩ := hreceiving (hopen hstate) hrec
      rw [hbatch, hwire, List.append_nil, List.append_nil] at harr
      refine ⟨cut, _, hcut, harr, .hdr (hopen hstate) ?_⟩
      have hlen := hreading.length
      have hpos := hrec.inLen
      omega
  | body hstate hin hlen hsize hreading =>
      have hrec := hquiet _ hreading
      obtain ⟨hbatch, hwire⟩ := hreceiving (hopen hstate) hrec
      rw [hbatch, hwire, List.append_nil, List.append_nil] at harr
      refine ⟨cut, _, hcut, harr, .body (hopen hstate) rfl hlen hsize ?_⟩
      have hlen := hreading.length
      have hpos := hrec.inLen
      omega
  | hasmsg hstate hin hpipe hquiet hnot hoffer =>
      rcases hoffer with ⟨hmem, -⟩ | ⟨-, hon⟩
      · rw [hevents] at hmem
        exact absurd hmem (by simp)
      · rw [hread] at hon
        exact absurd hon (by simp)
  | refused hstate hlen hsize hquiet hnot hin hread =>
      rw [List.append_assoc] at harr
      refine ⟨cut, _, hcut, harr, .refused ?_ rfl hlen hsize⟩
      cases hf : s.failed with
      | true => rfl
      | false =>
          have hmem := h.ended.mpr ⟨hstate, hf⟩
          rw [hevents] at hmem
          exact absurd hmem (by simp)

/-- So it has delivered the frames among what has arrived. -/
theorem Flow.quiet_delivered (h : s.Flow fmt opt) (hq : s.Quiet) {cut rest : List UInt8}
    {bodies : List (List UInt8)} (hcut : (fmt.framing opt).Frames cut bodies)
    (hrest : (fmt.framing opt).NoFrame rest) (harr : s.arrived = cut ++ rest) :
    s.delivered = bodies ∧ AtRest (fmt.framing opt) s rest := by
  obtain ⟨cut', part, hcut', harr', hat⟩ := h.quiet hq
  obtain ⟨-, hbodies, hpart⟩ :=
    hcut'.unique hcut hat.noFrame hrest (harr'.symm.trans harr)
  exact ⟨hbodies, hpart ▸ hat⟩

/-- An open session at rest has written every message that was sent. -/
theorem Flow.quiet_written (h : s.Flow fmt opt) (hq : s.Quiet) (hopen : s.failed = false) :
    s.pipe.session.written = (s.sent.map fmt.frame).flatten := by
  have hevents : s.pipe.session.events = [] := by
    by_contra hne
    exact hq (.deliver (.bytes 0)) ⟨by simp [Label.Holds], hne, trivial⟩
  have hout : s.pipe.session.usock.out = [] := by
    cases h.outbound hopen with
    | idle hout hpipe hnot hquiet hoffer => exact hnot.out
    | sending hout hpipe hsent hwrite hpipeOut hrequest =>
        rcases hrequest with ⟨hmem, -⟩ | ⟨-, hsending⟩
        · rw [hevents] at hmem
          exact absurd hmem (by simp)
        · rcases hsending.worker with ⟨hmem, -⟩ | ⟨-, hpoll⟩
          · refine absurd ⟨trivial, ⟨hopen, hevents, ?_⟩, trivial⟩ (hq .workerTask)
            exact List.ne_nil_of_mem hmem
          · exact absurd ⟨by simp [Label.Holds], ⟨hopen, hevents, hpoll⟩, by simp⟩
              (hq (.fdOut (.bytes 1)))
  have hwritten := h.written
  rwa [hout, List.flatten_nil, List.append_nil] at hwritten

/-- From every state a session comes to rest or the process ends, without anything new
being asked of it. -/
theorem exists_rest (hhdr : 0 < fmt.hdrLen) (hs : (flowing fmt opt).Reachable s) :
    ∃ s', (flowing fmt opt).Reachable s' ∧ s'.arrived = s.arrived ∧ s'.sent = s.sent ∧
      (s'.Quiet ∨ ∃ l a, s'.Productive l ∧ s'.next fmt opt l = .error a) := by
  induction hn : s.measure using Nat.strongRecOn generalizing s with
  | ind n ih =>
      by_cases hq : s.Quiet
      · exact ⟨s, hs, rfl, rfl, Or.inl hq⟩
      · obtain ⟨l, hl⟩ := not_forall_not.mp hq
        cases hnext : s.next fmt opt l with
        | error a => exact ⟨s, hs, rfl, rfl, Or.inr ⟨l, a, hl, hnext⟩⟩
        | ok s₁ =>
            have hstep : (flowing fmt opt).step s l s₁ := ⟨hl.1, hl.2.1, hnext⟩
            have hprogress := ((flow_of_reachable hhdr hs).step hhdr hstep).2 hl
            obtain ⟨s', hs', harr, hsent, hrest⟩ :=
              ih s₁.measure (hn ▸ hprogress.measure) (hs.step hstep) rfl
            exact ⟨s', hs', harr.trans hprogress.arrived, hsent.trans hprogress.sent, hrest⟩

/-! ## Receivers -/

/-- A step that can be taken is one that does not end the process. -/
def Safe (fmt : WireFormat) (opt : Int) (s : Session) (l : Label) : Prop :=
  l.Holds → s.Enabled l → ∃ s', s.next fmt opt l = .ok s'

theorem safe_of_not_fault (h : s.Flow fmt opt) (hhdr : 0 < fmt.hdrLen)
    (hno : ¬ s.Fault fmt opt l) : s.Safe fmt opt l := by
  intro hl hen
  rcases stepped_or_fault h hhdr hl hen with
    ⟨s', hnext, -⟩ | hfault
  · exact ⟨s', hnext⟩
  · exact absurd hfault hno

/-- A receiver that gets frames it accepts. -/
theorem receive_accepted (h : s.Flow fmt opt) (hhdr : 0 < fmt.hdrLen) {cut unread : List UInt8}
    {bodies : List (List UInt8)} (hcut : (fmt.framing opt).Frames cut bodies)
    (harr : s.arrived ++ unread = cut) :
    s.delivered <+: bodies ∧ s.pipe.session.state = .active ∧ (∀ l, s.Safe fmt opt l) ∧
      (unread = [] → s.Quiet → s.delivered = bodies) := by
  have hnil : (fmt.framing opt).NoFrame [] :=
    Library.Framing.noFrame_nil hhdr
  have harr' : s.arrived ++ unread = cut ++ [] := by rw [harr, List.append_nil]
  have hno : ∀ {hdr tail : List UInt8}, [] = hdr ++ tail → hdr.length ≠ fmt.hdrLen := by
    intro hdr tail heq hlen
    rw [(List.append_eq_nil_iff.mp heq.symm).1] at hlen
    exact absurd hlen (Nat.ne_of_lt hhdr)
  have hactive : s.pipe.session.state = .active := by
    rcases h.active_or_done with hactive | hdone
    · exact hactive
    · obtain ⟨hdr, tail, heq, hlen, -⟩ := h.done_hdr hdone hcut hnil harr'
      exact absurd hlen (hno heq)
  refine ⟨h.delivered_le hcut hnil harr', hactive, ?_, ?_⟩
  · intro l
    refine safe_of_not_fault h hhdr ?_
    cases l with
    | deliver io =>
        intro hfault
        obtain ⟨hdr, tail, a, heq, hlen, -⟩ := h.fault_hdr hactive hfault hcut hnil harr'
        exact hno heq hlen
    | send msg io =>
        intro hdone
        exact absurd (hactive.symm.trans hdone) (by simp)
    | arrive bytes => exact id
    | workerTask => exact id
    | fdIn io => exact id
    | fdOut io => exact id
    | fdErr => exact id
    | recv io => exact id
  · intro hall hq
    refine (h.quiet_delivered hq hcut hnil ?_).1
    rw [hall, List.append_nil] at harr
    rw [harr, List.append_nil]

/-- A step that finds the session ended by a header: a message that is sent, or the end of
one that was. -/
def SendsDropped (s : Session) : Label → Prop
  | .deliver _ =>
      s.pipe.session.events.head? = some (.usock .sent) ∧ s.pipe.session.state = .done
  | .send _ _ => s.pipe.session.state = .done
  | _ => False

theorem SendsDropped.fault (h : s.SendsDropped l) : s.Fault fmt opt l := by
  cases l with
  | deliver io =>
      obtain ⟨hhead, hdone⟩ := h
      obtain ⟨rest, hevents⟩ := List.head?_eq_some_iff.mp hhead
      exact Or.inr ⟨rest, hevents, hdone⟩
  | send msg io => exact h
  | arrive bytes => exact h
  | workerTask => exact h
  | fdIn io => exact h
  | fdOut io => exact h
  | fdErr => exact h
  | recv io => exact h

/-- There is no such step where nothing is sent. -/
theorem Flow.not_sendsDropped (h : s.Flow fmt opt) (hsent : s.sent = [])
    (hl : ∀ msg io, l ≠ .send msg io) : ¬ s.SendsDropped l := by
  intro hdropped
  cases l with
  | deliver io =>
      obtain ⟨events, hevents⟩ := List.head?_eq_some_iff.mp hdropped.1
      cases h.outbound (h.open_of_event hevents) with
      | idle hout hpipe hnot hquiet hoffer => exact hquiet (by simp [hevents])
      | sending hout hpipe hne hwrite hpipeOut hrequest => exact hne hsent
  | send msg io => exact hl msg io rfl
  | arrive bytes => exact hdropped
  | workerTask => exact hdropped
  | fdIn io => exact hdropped
  | fdOut io => exact hdropped
  | fdErr => exact hdropped
  | recv io => exact hdropped

/-- A receiver that gets a header it does not accept.  It goes on, but for a message that is
sent, or was, when the header has ended it. -/
theorem receive_oversize (h : s.Flow fmt opt) (hhdr : 0 < fmt.hdrLen)
    {cut hdr tail unread : List UInt8} {bodies : List (List UInt8)}
    (hcut : (fmt.framing opt).Frames cut bodies) (hlen : hdr.length = fmt.hdrLen)
    (hsize : (fmt.framing opt).size hdr = .error none)
    (harr : s.arrived ++ unread = cut ++ (hdr ++ tail)) :
    s.delivered <+: bodies ∧
      (∀ l, s.Safe fmt opt l ↔ ¬ (l.Holds ∧ s.Enabled l ∧ s.SendsDropped l)) ∧
      (s.Quiet → (cut ++ hdr).length ≤ s.arrived.length →
        s.delivered = bodies ∧ s.failed = true) := by
  have hrest : (fmt.framing opt).NoFrame (hdr ++ tail) :=
    Library.Framing.noFrame_of_error _ hlen hsize
  refine ⟨h.delivered_le hcut hrest harr, ?_, ?_⟩
  · intro l
    constructor
    · rintro hsafe ⟨hl, hen, hdropped⟩
      obtain ⟨s', hnext⟩ := hsafe hl hen
      have hfault : s.Fault fmt opt l := hdropped.fault
      obtain ⟨a, herror⟩ := fault_error hfault
      rw [hnext] at herror
      exact absurd herror (by simp)
    · intro hno hl hen
      refine safe_of_not_fault h hhdr ?_ hl hen
      intro hfault
      refine hno ⟨hl, hen, ?_⟩
      cases l with
      | deliver io =>
          rcases h.active_or_done with hactive | hdone
          · obtain ⟨hdr', tail', a, heq, hlen', hsize'⟩ :=
              h.fault_hdr hactive hfault hcut hrest harr
            obtain ⟨rfl, -⟩ := List.append_inj heq (by rw [hlen, hlen'])
            rw [hsize] at hsize'
            exact absurd (Except.error.inj hsize') (by simp)
          · rcases hfault with ⟨events, a, -, hactive, -⟩ | ⟨events, hevents, -⟩
            · exact absurd (hactive.symm.trans hdone) (by simp)
            · exact ⟨by rw [hevents]; rfl, hdone⟩
      | send msg io => exact hfault
      | arrive bytes => exact hfault
      | workerTask => exact hfault
      | fdIn io => exact hfault
      | fdOut io => exact hfault
      | fdErr => exact hfault
      | recv io => exact hfault
  · intro hq hle
    -- all of the header has arrived
    have hframed : cut ++ hdr <+: cut ++ (hdr ++ tail) := by
      rw [← List.append_assoc]
      exact List.prefix_append _ _
    have harrived : s.arrived <+: cut ++ (hdr ++ tail) := by
      rw [← harr]
      exact List.prefix_append _ _
    obtain ⟨more, hmore⟩ := List.prefix_of_prefix_length_le hframed harrived hle
    rw [List.append_assoc] at hmore
    obtain ⟨hdelivered, hat⟩ := h.quiet_delivered hq hcut
      (Library.Framing.noFrame_of_error more hlen hsize) hmore.symm
    refine ⟨hdelivered, ?_⟩
    cases hat with
    | refused hfailed hpart hlen' hsize' => exact hfailed
    | hdr hopen hpart =>
        have hlen₂ : hdr.length = (fmt.framing opt).hdrLen := hlen
        rw [List.length_append, hlen₂] at hpart
        omega
    | body hopen hpart hlen' hsize' hbody =>
        obtain ⟨rfl, -⟩ := List.append_inj hpart (by rw [hlen, hlen']; rfl)
        rw [hsize] at hsize'
        exact absurd hsize' (by simp)

end GridMq.Transports.Session
