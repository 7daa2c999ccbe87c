import GridMq.Transports.RemovedPipes

set_option autoImplicit false

/-!
# Runs in which pipes are removed

Only SHUTDOWN, ERROR and the event of the owner remove a pipe.  Events of the pipe are
raised when a message ends, so they stand behind one of these only if the message ended
while it was waiting; ERROR and the event of the owner are never waited for by others.
-/

namespace GridMq.Transports

open GridMq.Aio GridMq.Core GridMq.Library

namespace Session

/-- An event after which the pipe is not in its socket. -/
def Fatal (e : StreamEvent) : Prop :=
  e = .usock .shutdown ∨ e = .usock .error ∨ e = .done

/-- The invariant of the runs in which messages end in time. -/
structure Orderly (s : Session) : Prop where
  order : s.pipe.session.events.Pairwise fun a b => Fatal a → ¬b.OfPipe
  first : StreamEvent.usock .error ∉ s.pipe.session.events.tail
  ended : StreamEvent.done ∈ s.pipe.session.events → s.pipe.session.state ≠ .active
  quiet : s.attached = false → ∀ e ∈ s.pipe.session.events, ¬e.OfPipe
  idle : s.attached = false → s.readable = false ∧ s.writable = false
  unusable : s.attached = false → s.failed = false → s.pipe.session.state ≠ .active
  stopped : s.failed = true →
    s.attached = false ∧ (s.pipe.session.state ≠ .active ∨ s.pipe.session.events = [])

variable {fmt : WireFormat} {opt : Int} {s s' : Session} {io : Io}

/-- An event that joins a queue does not stand first unless the queue was empty. -/
theorem not_mem_tail_append {events : List StreamEvent} {a e : StreamEvent}
    (h : a ∉ events.tail) (hfirst : a = e → events = []) : a ∉ (events ++ [e]).tail := by
  intro hin
  cases events with
  | nil => simp at hin
  | cons b rest =>
      rw [List.cons_append, List.tail_cons] at hin
      rcases List.mem_append.mp hin with hin | hin
      · exact h hin
      · exact absurd (hfirst (List.mem_singleton.mp hin)) (by simp)

theorem Orderly.silent (h : s.Orderly) : s.Silent := by
  intro e rest hevents hpipe
  by_contra hremoved
  have hquiet := h.quiet (by simpa using hremoved) e (by rw [hevents]; exact List.mem_cons_self)
  exact hquiet hpipe

/-! ## Calls of the usock -/

/-- A step raises at most one event of the usock. -/
structure Raises (st st' : Stream) : Prop where
  state : st'.state = st.state
  events : st'.events = st.events ∨ ∃ e, st'.events = st.events ++ [.usock e] ∧
    (e = .error → st.events = [])

theorem raise_cases {st st' : Stream} {e : StreamEvent} (h : st.raise e = .ok st') :
    st' = { st with events := st.events ++ [e] } := by
  obtain ⟨_, -, h⟩ := bind_eq_ok_iff.mp h
  exact (Except.ok.inj h).symm

theorem raiseUsock_raises {st st' : Stream} {e : Option UsockEvent}
    (h : st.raiseUsock e = .ok st') (hfirst : e = some .error → st.events = []) :
    Raises st st' := by
  unfold Stream.raiseUsock at h
  split at h
  · obtain rfl := Except.ok.inj h
    exact ⟨rfl, Or.inl rfl⟩
  · rename_i e
    obtain rfl := raise_cases h
    exact ⟨rfl, Or.inr ⟨e, rfl, fun he => hfirst (congrArg some he)⟩⟩

/-- A call that fails gives the connection up with SHUTDOWN. -/
theorem recv_no_error {u : Usock} {wire : List UInt8} {len : Nat}
    {r : Usock × List UInt8 × Option UsockEvent} (h : u.recv wire len io = .ok r) :
    r.2.2 ≠ some .error := by
  obtain ⟨_, -, h⟩ := bind_eq_ok_iff.mp h
  split at h
  · obtain ⟨r', hr', h⟩ := bind_eq_ok_iff.mp h
    obtain ⟨_, -, hr'⟩ := bind_eq_ok_iff.mp hr'
    obtain rfl := Except.ok.inj hr'
    obtain rfl := Except.ok.inj h
    simp
  · split at h
    · obtain rfl := Except.ok.inj h
      simp
    · obtain ⟨_, -, h⟩ := bind_eq_ok_iff.mp h
      obtain rfl := Except.ok.inj h
      simp

theorem send_no_error {u : Usock} {iov : List (List UInt8)}
    {r : Usock × List UInt8 × Option UsockEvent} (h : u.send iov io = .ok r) :
    r.2.2 ≠ some .error := by
  obtain ⟨_, -, h⟩ := bind_eq_ok_iff.mp h
  obtain ⟨_, -, h⟩ := bind_eq_ok_iff.mp h
  simp only at h
  split at h
  · obtain ⟨r', hr', h⟩ := bind_eq_ok_iff.mp h
    obtain ⟨_, -, hr'⟩ := bind_eq_ok_iff.mp hr'
    obtain rfl := Except.ok.inj hr'
    obtain rfl := Except.ok.inj h
    simp
  · obtain ⟨r', -, h⟩ := bind_eq_ok_iff.mp h
    split at h
    · obtain rfl := Except.ok.inj h
      simp
    · obtain ⟨_, -, h⟩ := bind_eq_ok_iff.mp h
      obtain rfl := Except.ok.inj h
      simp

theorem usockRecv_raises {st st' : Stream} {len : Nat} (h : st.usockRecv len io = .ok st') :
    Raises st st' := by
  obtain ⟨r, hr, h⟩ := bind_eq_ok_iff.mp h
  have hraises := raiseUsock_raises h (fun he => absurd he (recv_no_error hr))
  exact ⟨hraises.state, hraises.events⟩

theorem usockSend_raises {st st' : Stream} {iov : List (List UInt8)}
    (h : st.usockSend iov io = .ok st') : Raises st st' := by
  obtain ⟨r, hr, h⟩ := bind_eq_ok_iff.mp h
  have hraises := raiseUsock_raises h (fun he => absurd he (send_no_error hr))
  exact ⟨hraises.state, hraises.events⟩

/-- A session that has its pipe, and one whose pipe is gone, may hear of their usock. -/
theorem Orderly.raises (h : s.Orderly) (hraises : Raises s.pipe.session s'.pipe.session)
    (hlive : s.failed = false) (hattached : s'.attached = s.attached)
    (hfailed : s'.failed = s.failed)
    (hidle : s.attached = false → s'.readable = false ∧ s'.writable = false) :
    s'.Orderly := by
  obtain ⟨hstate, hevents⟩ := hraises
  have hmem : ∀ e, e ∈ s'.pipe.session.events → (∃ k, e = .usock k) ∨ e ∈ s.pipe.session.events := by
    intro e he
    rcases hevents with hsame | ⟨k, hmore, -⟩
    · exact Or.inr (hsame ▸ he)
    · rw [hmore] at he
      rcases List.mem_append.mp he with he | he
      · exact Or.inr he
      · exact Or.inl ⟨k, List.mem_singleton.mp he⟩
  refine ⟨?_, ?_, ?_, ?_, ?_, ?_, ?_⟩
  · rcases hevents with hsame | ⟨k, hmore, -⟩
    · rw [hsame]
      exact h.order
    · rw [hmore, List.pairwise_append]
      refine ⟨h.order, List.pairwise_singleton _ _, ?_⟩
      intro a _ b hb _ hpipe
      rw [List.mem_singleton.mp hb] at hpipe
      rcases hpipe with hpipe | hpipe <;> exact absurd hpipe (by simp)
  · rcases hevents with hsame | ⟨k, hmore, hfirst⟩
    · rw [hsame]
      exact h.first
    · rw [hmore]
      apply not_mem_tail_append h.first
      intro hk
      exact hfirst (StreamEvent.usock.inj hk).symm
  · intro hin
    rw [hstate]
    rcases hmem _ hin with ⟨k, hk⟩ | hin
    · exact absurd hk (by simp)
    · exact h.ended hin
  · intro hgone e he hpipe
    rw [hattached] at hgone
    rcases hmem _ he with ⟨k, rfl⟩ | he
    · rcases hpipe with hpipe | hpipe <;> exact absurd hpipe (by simp)
    · exact h.quiet hgone e he hpipe
  · intro hgone
    rw [hattached] at hgone
    exact hidle hgone
  · intro hgone hno
    rw [hattached] at hgone
    rw [hstate]
    exact h.unusable hgone hlive
  · intro hyes
    rw [hfailed, hlive] at hyes
    exact absurd hyes (by simp)

/-! ## The session and its pipe -/

/-- An event is taken from the queue. -/
theorem Orderly.popped (h : s.Orderly) {e : StreamEvent} {rest : List StreamEvent}
    (hevents : s.pipe.session.events = e :: rest) :
    (s.setStream { s.pipe.session with events := rest }).Orderly := by
  have horder := h.order
  rw [hevents] at horder
  have hfirst := h.first
  rw [hevents, List.tail_cons] at hfirst
  refine ⟨(List.pairwise_cons.mp horder).2, ?_, ?_, ?_, h.idle, h.unusable, ?_⟩
  · intro hin
    exact hfirst (List.mem_of_mem_tail hin)
  · intro hin
    exact h.ended (by rw [hevents]; exact List.mem_cons_of_mem e hin)
  · intro hgone e' he'
    exact h.quiet hgone e' (by rw [hevents]; exact List.mem_cons_of_mem e he')
  · intro hyes
    refine ⟨(h.stopped hyes).1, Or.inl ?_⟩
    rcases (h.stopped hyes).2 with hstate | hnil
    · exact hstate
    · rw [hnil] at hevents
      exact absurd hevents (by simp)

/-- Behind an event that removes the pipe there is none of the pipe. -/
theorem Orderly.quiet_behind (h : s.Orderly) {e : StreamEvent} {rest : List StreamEvent}
    (hevents : s.pipe.session.events = e :: rest) (he : Fatal e) : ∀ e ∈ rest, ¬e.OfPipe := by
  have horder := h.order
  rw [hevents] at horder
  exact fun e' he' => (List.pairwise_cons.mp horder).1 e' he' he

/-- An active session that is given an event has its pipe, and unless SHUTDOWN is queued
nothing that removes it is. -/
theorem Orderly.active_event (h : s.Orderly) {e : StreamEvent} {rest : List StreamEvent}
    (hevents : s.pipe.session.events = e :: rest) (hactive : s.pipe.session.state = .active) :
    s.attached = true ∧ s.failed = false ∧
      (StreamEvent.usock .shutdown ∉ rest → ∀ a ∈ rest, ¬Fatal a) := by
  have hlive : s.failed = false := by
    by_contra hfailed
    rcases (h.stopped (by simpa using hfailed)).2 with hstate | hnil
    · exact hstate hactive
    · rw [hnil] at hevents
      exact absurd hevents (by simp)
  refine ⟨?_, hlive, ?_⟩
  · by_contra hgone
    exact h.unusable (by simpa using hgone) hlive hactive
  · intro hno a ha hfatal
    rcases hfatal with rfl | rfl | rfl
    · exact hno ha
    · exact h.first (by rw [hevents]; exact ha)
    · exact h.ended (by rw [hevents]; exact List.mem_cons_of_mem e ha) hactive

/-- The end of a message is announced to the socket. -/
theorem Orderly.announce (h : s.Orderly) (hattached : s.attached = true)
    (hlive : s.failed = false) (hclear : ∀ a ∈ s.pipe.session.events, ¬Fatal a)
    {e : StreamEvent} (he : e.OfPipe) (hkeep : s'.attached = s.attached ∧ s'.failed = s.failed)
    (hstate : s'.pipe.session.state = s.pipe.session.state)
    (hevents : s'.pipe.session.events = s.pipe.session.events ∨
      s'.pipe.session.events = s.pipe.session.events ++ [e]) : s'.Orderly := by
  have hattached' : ¬s'.attached = false := by simp [hkeep.1, hattached]
  have hlive' : ¬s'.failed = true := by simp [hkeep.2, hlive]
  have hnot : ∀ k, e ≠ .usock k := by
    intro k hk
    rcases he with he | he <;> exact absurd (he.symm.trans hk) (by simp)
  refine ⟨?_, ?_, ?_, fun hgone => absurd hgone hattached', fun hgone => absurd hgone hattached',
    fun hgone => absurd hgone hattached', fun hyes => absurd hyes hlive'⟩
  · rcases hevents with hsame | hmore
    · rw [hsame]
      exact h.order
    · rw [hmore, List.pairwise_append]
      refine ⟨h.order, List.pairwise_singleton _ _, ?_⟩
      intro a ha b _ hfatal
      exact absurd hfatal (hclear a ha)
  · rcases hevents with hsame | hmore
    · rw [hsame]
      exact h.first
    · rw [hmore]
      apply not_mem_tail_append h.first
      intro hk
      exact absurd hk.symm (hnot _)
  · rw [hstate]
    intro hin
    rcases hevents with hsame | hmore
    · exact h.ended (hsame ▸ hin)
    · rw [hmore] at hin
      rcases List.mem_append.mp hin with hin | hin
      · exact h.ended hin
      · rcases he with he | he <;>
          exact absurd (he.symm.trans (List.mem_singleton.mp hin).symm) (by simp)

theorem pipeSent_cases (h : s.pipeSent = .ok s') :
    (s'.attached = s.attached ∧ s'.failed = s.failed) ∧
      s'.pipe.session.state = s.pipe.session.state ∧
      (s'.pipe.session.events = s.pipe.session.events ∨
        s'.pipe.session.events = s.pipe.session.events ++ [.pipeOut]) := by
  obtain ⟨⟨p, raised⟩, hsent, h⟩ := bind_eq_ok_iff.mp h
  obtain ⟨stream, hraise, h⟩ := bind_eq_ok_iff.mp h
  obtain rfl := Except.ok.inj h
  rcases Pipe.sent_eq_ok.mp hsent with ⟨-, rfl, rfl⟩ | ⟨-, rfl, rfl⟩
  · obtain rfl := Except.ok.inj hraise
    exact ⟨⟨rfl, rfl⟩, rfl, Or.inl rfl⟩
  · obtain rfl := raise_cases hraise
    exact ⟨⟨rfl, rfl⟩, rfl, Or.inr rfl⟩

theorem pipeReceived_cases (h : s.pipeReceived = .ok s') :
    (s'.attached = s.attached ∧ s'.failed = s.failed) ∧
      s'.pipe.session.state = s.pipe.session.state ∧
      (s'.pipe.session.events = s.pipe.session.events ∨
        s'.pipe.session.events = s.pipe.session.events ++ [.pipeIn]) := by
  obtain ⟨⟨p, raised⟩, hreceived, h⟩ := bind_eq_ok_iff.mp h
  obtain ⟨stream, hraise, h⟩ := bind_eq_ok_iff.mp h
  obtain rfl := Except.ok.inj h
  rcases Pipe.received_eq_ok.mp hreceived with ⟨-, rfl, rfl⟩ | ⟨-, rfl, rfl⟩
  · obtain rfl := Except.ok.inj hraise
    exact ⟨⟨rfl, rfl⟩, rfl, Or.inl rfl⟩
  · obtain rfl := raise_cases hraise
    exact ⟨⟨rfl, rfl⟩, rfl, Or.inr rfl⟩

/-- The session leaves its ACTIVE state. -/
theorem Orderly.withState (h : s.Orderly) {state : StreamState} (hstate : state ≠ .active) :
    (s.setStream { s.pipe.session with state := state }).Orderly where
  order := h.order
  first := h.first
  ended _ := hstate
  quiet := h.quiet
  idle := h.idle
  unusable _ _ := hstate
  stopped hyes := ⟨(h.stopped hyes).1, Or.inl hstate⟩

/-- It leaves it with its pipe. -/
theorem Orderly.pipeStop (h : s.Orderly) (hlive : s.failed = false)
    (hquiet : ∀ e ∈ s.pipe.session.events, ¬e.OfPipe) {state : StreamState}
    (hstate : state ≠ .active) :
    (s.pipeStop.setStream { s.pipe.session with state := state }).Orderly where
  order := h.order
  first := h.first
  ended _ := hstate
  quiet _ := hquiet
  idle _ := ⟨rfl, rfl⟩
  unusable _ _ := hstate
  stopped hyes := absurd (hyes.symm.trans hlive) (by simp)

/-- The owner stops the session. -/
theorem Orderly.stop (h : s.Orderly) (hquiet : ∀ e ∈ s.pipe.session.events, ¬e.OfPipe)
    (hover : s.pipe.session.state ≠ .active ∨ s.pipe.session.events = []) :
    ({ s.pipeStop with failed := true } : Session).Orderly where
  order := h.order
  first := h.first
  ended := h.ended
  quiet _ := hquiet
  idle _ := ⟨rfl, rfl⟩
  unusable _ hno := absurd hno (by simp)
  stopped _ := ⟨rfl, hover⟩

/-- The owner is told that the session is over. -/
theorem Orderly.fail (h : (s.setStream { s.pipe.session with state := .done }).Orderly)
    (hfail : s.fail = .ok s') : s'.Orderly := by
  obtain ⟨stream, hraise, hfail⟩ := bind_eq_ok_iff.mp hfail
  obtain rfl := raise_cases hraise
  obtain rfl := Except.ok.inj hfail
  have hdone : ¬StreamEvent.done.OfPipe := by
    rintro (hpipe | hpipe) <;> exact absurd hpipe (by simp)
  refine ⟨?_, ?_, ?_, ?_, h.idle, h.unusable, ?_⟩
  · refine List.pairwise_append.mpr ⟨h.order, List.pairwise_singleton _ _, ?_⟩
    intro a _ b hb _
    rw [List.mem_singleton.mp hb]
    exact hdone
  · have hfirst : StreamEvent.usock .error ∉ s.pipe.session.events.tail := h.first
    exact not_mem_tail_append hfirst (fun hk => absurd hk (by simp))
  · intro _
    exact (by simp : StreamState.done ≠ .active)
  · intro hgone e he
    rcases List.mem_append.mp he with he | he
    · exact h.quiet hgone e he
    · rw [List.mem_singleton.mp he]
      exact hdone
  · intro hyes
    exact ⟨(h.stopped hyes).1, Or.inl (by simp [setStream])⟩

/-! ## Steps -/

/-- A received header. -/
theorem hdrReceived_orderly (h : s.Orderly) (hattached : s.attached = true)
    (hlive : s.failed = false)
    (hclear : fmt.checkHdr opt s.pipe.session.usock.inBuf = .ok (some 0) →
      ∀ a ∈ s.pipe.session.events, ¬Fatal a)
    (hnext : s.hdrReceived fmt opt io = .ok s') : s'.Orderly := by
  obtain ⟨size, hcheck, hnext⟩ := bind_eq_ok_iff.mp hnext
  cases size with
  | none =>
      refine Orderly.fail ?_ hnext
      have hdone : (s.setStream { s.pipe.session with state := .done }).Orderly :=
        h.withState (by simp)
      exact ⟨hdone.order, hdone.first, hdone.ended, hdone.quiet, hdone.idle, hdone.unusable,
        hdone.stopped⟩
  | some size =>
      obtain ⟨_, -, hnext⟩ := bind_eq_ok_iff.mp hnext
      split at hnext
      · rename_i hzero
        obtain ⟨hkeep, hstate, hevents⟩ := pipeReceived_cases hnext
        rw [hzero] at hcheck
        exact h.announce hattached hlive (hclear hcheck) (Or.inl rfl) hkeep hstate hevents
      · obtain ⟨stream, hrecv, hnext⟩ := bind_eq_ok_iff.mp hnext
        obtain rfl := Except.ok.inj hnext
        obtain ⟨hstate, hevents⟩ := usockRecv_raises hrecv
        refine h.raises ⟨hstate, hevents⟩ hlive rfl rfl ?_
        intro hgone
        exact absurd (hattached.symm.trans hgone) (by simp)

/-- An event of the usock, taken from the queue of an active session. -/
theorem activeHandler_orderly (h : s.Orderly) {type : UsockEvent} {rest : List StreamEvent}
    (hevents : s.pipe.session.events = .usock type :: rest)
    (hactive : s.pipe.session.state = .active)
    (htime : s.EndsMessage fmt opt type → StreamEvent.usock .shutdown ∉ rest)
    (hnext : (s.setStream { s.pipe.session with events := rest }).activeHandler fmt opt type io =
      .ok s') : s'.Orderly := by
  have hpopped := h.popped hevents
  obtain ⟨hattached, hlive, hclear⟩ := h.active_event hevents hactive
  cases type with
  | sent =>
      obtain ⟨_, -, hnext⟩ := bind_eq_ok_iff.mp hnext
      obtain ⟨hkeep, hstate, hmore⟩ := pipeSent_cases hnext
      exact hpopped.announce hattached hlive (hclear (htime trivial)) (Or.inr rfl) hkeep hstate
        hmore
  | received =>
      simp only [activeHandler] at hnext
      split at hnext
      · rename_i hin
        refine hdrReceived_orderly hpopped hattached hlive ?_ hnext
        intro hzero
        apply hclear
        apply htime
        have hin' : s.pipe.session.instate = .hdr := hin
        simp only [EndsMessage, hin']
        exact hzero
      · rename_i hin
        have hin' : s.pipe.session.instate = .body := hin
        obtain ⟨hkeep, hstate, hmore⟩ := pipeReceived_cases hnext
        refine hpopped.announce hattached hlive (hclear (htime ?_)) (Or.inl rfl) hkeep hstate hmore
        simp only [EndsMessage, hin']
      · exact absurd hnext (by simp)
  | shutdown =>
      obtain rfl := Except.ok.inj hnext
      exact hpopped.pipeStop hlive (h.quiet_behind hevents (Or.inl rfl)) (by simp)
  | error =>
      refine Orderly.fail ?_ hnext
      exact hpopped.pipeStop hlive (h.quiet_behind hevents (Or.inr (Or.inl rfl))) (by simp)
  | connected => exact absurd hnext (by simp [activeHandler])
  | accepted => exact absurd hnext (by simp [activeHandler])
  | acceptError => exact absurd hnext (by simp [activeHandler])
  | stopped => exact absurd hnext (by simp [activeHandler])

/-- The next event is delivered. -/
theorem deliver_orderly (h : s.Orderly) {e : StreamEvent} {rest : List StreamEvent}
    (hevents : s.pipe.session.events = e :: rest)
    (htime : ∀ k, e = .usock k → s.pipe.session.state = .active → s.EndsMessage fmt opt k →
      StreamEvent.usock .shutdown ∉ rest)
    (hnext : (s.setStream { s.pipe.session with events := rest }).deliver fmt opt e io =
      .ok s') : s'.Orderly := by
  have hpopped := h.popped hevents
  cases e with
  | usock type =>
      simp only [deliver, handler] at hnext
      split at hnext
      · rename_i hactive
        exact activeHandler_orderly h hevents hactive (htime type rfl hactive) hnext
      · split at hnext
        · exact Orderly.fail (hpopped.withState (by simp)) hnext
        · exact absurd hnext (by simp)
      · exact absurd hnext (by simp)
  | pipeIn =>
      obtain rfl := Except.ok.inj hnext
      exact ⟨hpopped.order, hpopped.first, hpopped.ended, hpopped.quiet,
        fun hgone => ⟨hgone, (h.idle hgone).2⟩, hpopped.unusable, hpopped.stopped⟩
  | pipeOut =>
      obtain rfl := Except.ok.inj hnext
      exact ⟨hpopped.order, hpopped.first, hpopped.ended, hpopped.quiet,
        fun hgone => ⟨(h.idle hgone).1, hgone⟩, hpopped.unusable, hpopped.stopped⟩
  | done =>
      obtain rfl := Except.ok.inj hnext
      have hover := h.ended (by rw [hevents]; exact List.mem_cons_self)
      exact hpopped.stop (h.quiet_behind hevents (Or.inr (Or.inr rfl))) (Or.inl hover)

/-- The worker and the socket type raise what the usock reports. -/
theorem next_raises {l : Label} (hen : s.Enabled l) (hnext : s.next fmt opt l = .ok s')
    (hl : ∀ io, l ≠ .deliver io) (hbytes : ∀ b, l ≠ .arrive b) :
    Raises s.pipe.session s'.pipe.session ∧ s'.attached = s.attached ∧ s'.failed = s.failed ∧
      (s.readable = false → s'.readable = false) ∧ (s.writable = false → s'.writable = false) := by
  cases l with
  | arrive bytes => exact absurd rfl (hbytes bytes)
  | deliver io => exact absurd rfl (hl io)
  | workerTask | fdIn io | fdOut io | fdErr =>
      obtain ⟨r, -, hnext⟩ := bind_eq_ok_iff.mp hnext
      obtain ⟨stream, hraise, hnext⟩ := bind_eq_ok_iff.mp hnext
      obtain rfl := Except.ok.inj hnext
      have hraises := raiseUsock_raises hraise (fun _ => hen.2.1)
      exact ⟨⟨hraises.state, hraises.events⟩, rfl, rfl, id, id⟩
  | send msg io =>
      obtain ⟨⟨p, release⟩, hsend, hnext⟩ := bind_eq_ok_iff.mp hnext
      obtain rfl := Except.ok.inj hnext
      obtain ⟨-, p', hvfptr, hdone⟩ := Pipe.send_cases hsend
      obtain ⟨stream, hcall, hvfptr⟩ := bind_eq_ok_iff.mp hvfptr
      obtain rfl := Except.ok.inj hvfptr
      obtain ⟨_, -, hcall⟩ := bind_eq_ok_iff.mp hcall
      obtain ⟨_, -, hcall⟩ := bind_eq_ok_iff.mp hcall
      obtain ⟨sent, hsent, hcall⟩ := bind_eq_ok_iff.mp hcall
      obtain rfl := Except.ok.inj hcall
      have hraises := usockSend_raises hsent
      have hsession : p.session = { sent with outstate := .sending } := by
        rcases hdone with ⟨-, rfl, -⟩ | ⟨-, rfl, -⟩ <;> rfl
      have hwritable : s.writable = true := hen
      refine ⟨?_, rfl, rfl, id, fun hno => absurd (hwritable.symm.trans hno) (by simp)⟩
      simp only [hsession]
      exact ⟨hraises.state, hraises.events⟩
  | recv io =>
      obtain ⟨⟨p, m, release⟩, hrecv, hnext⟩ := bind_eq_ok_iff.mp hnext
      obtain rfl := Except.ok.inj hnext
      obtain ⟨-, p', hvfptr, hdone⟩ := Pipe.recv_cases hrecv
      obtain ⟨⟨stream, msg⟩, hcall, hvfptr⟩ := bind_eq_ok_iff.mp hvfptr
      obtain ⟨_, -, hcall⟩ := bind_eq_ok_iff.mp hcall
      obtain ⟨_, -, hcall⟩ := bind_eq_ok_iff.mp hcall
      obtain ⟨received, hreceived, hcall⟩ := bind_eq_ok_iff.mp hcall
      obtain ⟨rfl, rfl⟩ := Prod.mk.inj (Except.ok.inj hcall)
      obtain ⟨rfl, rfl⟩ := Prod.mk.inj (Except.ok.inj hvfptr)
      have hraises := usockRecv_raises hreceived
      have hsession : p.session = received := by
        rcases hdone with ⟨-, rfl, -⟩ | ⟨-, rfl, -⟩ <;> rfl
      have hreadable : s.readable = true := hen
      refine ⟨?_, rfl, rfl, fun hno => absurd (hreadable.symm.trans hno) (by simp), id⟩
      simp only [hsession]
      exact ⟨hraises.state, hraises.events⟩

/-- A session that its owner has stopped makes no step of its own. -/
theorem Orderly.live (h : s.Orderly) {l : Label} (hen : s.Enabled l)
    (hl : ∀ io, l ≠ .deliver io) (hbytes : ∀ b, l ≠ .arrive b) : s.failed = false := by
  by_contra hfailed
  have hyes : s.failed = true := by simpa using hfailed
  obtain ⟨hread, hwrite⟩ := h.idle (h.stopped hyes).1
  cases l with
  | arrive bytes => exact hbytes bytes rfl
  | deliver io => exact hl io rfl
  | workerTask => exact hfailed hen.1
  | fdIn io => exact hfailed hen.1
  | fdOut io => exact hfailed hen.1
  | fdErr => exact hfailed hen.1
  | send msg io => exact absurd (hen.symm.trans hwrite) (by simp)
  | recv io => exact absurd (hen.symm.trans hread) (by simp)

theorem orderly_step {l : OwnedLabel} (h : s.Orderly) (htime : s.InTime fmt opt l)
    (hstep : (owned fmt opt).step s l s') : s'.Orderly := by
  obtain ⟨hen, hnext⟩ := hstep
  cases l with
  | stop =>
      obtain rfl := Except.ok.inj hnext
      have hnil : s.pipe.session.events = [] := hen
      exact h.stop (by simp [hnil]) (Or.inr hnil)
  | session l =>
      by_cases hdeliver : ∃ io, l = .deliver io
      · obtain ⟨io, rfl⟩ := hdeliver
        obtain ⟨e, rest, hevents⟩ := List.exists_cons_of_ne_nil hen
        simp only [ownedNext, next, hevents] at hnext
        refine deliver_orderly h hevents ?_ hnext
        intro k hk
        exact htime k rest (hk ▸ hevents)
      · have hother : ∀ io, l ≠ .deliver io := fun io hl => hdeliver ⟨io, hl⟩
        by_cases harrive : ∃ bytes, l = .arrive bytes
        · obtain ⟨bytes, rfl⟩ := harrive
          obtain rfl := Except.ok.inj hnext
          exact ⟨h.order, h.first, h.ended, h.quiet, h.idle, h.unusable, h.stopped⟩
        · have hbytes : ∀ b, l ≠ .arrive b := fun b hl => harrive ⟨b, hl⟩
          obtain ⟨hraises, hattached, hfailed, hread, hwrite⟩ :=
            next_raises hen hnext hother hbytes
          refine h.raises hraises (h.live hen hother hbytes) hattached hfailed ?_
          intro hgone
          exact ⟨hread (h.idle hgone).1, hwrite (h.idle hgone).2⟩

theorem orderly_init (h : (owned fmt opt).init s) : s.Orderly := by
  obtain ⟨batch, wire, io, h⟩ := h
  obtain ⟨st, hraise, h⟩ := bind_eq_ok_iff.mp h
  obtain ⟨st', hrecv, h⟩ := bind_eq_ok_iff.mp h
  obtain rfl := Except.ok.inj h
  obtain rfl := raise_cases hraise
  have hraises := usockRecv_raises hrecv
  -- before the usock is asked for the first header
  have hstarted : Orderly { pipe := (Pipe.start { sndprio := 8, rcvprio := 8, session :=
      { events := [StreamEvent.pipeOut] } } : Pipe Stream) } := by
    refine ⟨List.pairwise_singleton _ _, by simp [Pipe.start], by simp [Pipe.start], ?_, ?_, ?_, ?_⟩
    · intro hgone
      exact absurd hgone (by simp)
    · intro hgone
      exact absurd hgone (by simp)
    · intro hgone
      exact absurd hgone (by simp)
    · intro hyes
      exact absurd hyes (by simp)
  exact hstarted.raises ⟨hraises.state, hraises.events⟩ rfl rfl rfl (fun _ => ⟨rfl, rfl⟩)

theorem orderly_reachable (h : ((owned fmt opt).restrict (InTime fmt opt)).Reachable s) :
    s.Orderly := by
  refine h.invariant ?_ ?_
  · intro s hinit
    have hstart : (owned fmt opt).init s := hinit
    exact orderly_init hstart
  · intro s l s' _ hs hstep
    exact orderly_step hs hstep.1 hstep.2

/-! ## A message that ends too late -/

/-- Events are added to a queue, and a pipe that is gone stays gone. -/
structure Continues (s s' : Session) : Prop where
  events : s.pipe.session.events <+: s'.pipe.session.events
  removed : s.attached = false → s'.attached = false

theorem Raises.extends_events {st st' : Stream} (h : Raises st st') : st.events <+: st'.events := by
  rcases h.events with hsame | ⟨e, hmore, -⟩
  · rw [hsame]
  · rw [hmore]
    exact List.prefix_append _ _

theorem fail_continues (h : s.fail = .ok s') : s.Continues s' := by
  obtain ⟨stream, hraise, h⟩ := bind_eq_ok_iff.mp h
  obtain rfl := raise_cases hraise
  obtain rfl := Except.ok.inj h
  exact ⟨List.prefix_append _ _, id⟩

theorem announced_continues {e : StreamEvent}
    (h : (s'.attached = s.attached ∧ s'.failed = s.failed) ∧
      s'.pipe.session.state = s.pipe.session.state ∧
      (s'.pipe.session.events = s.pipe.session.events ∨
        s'.pipe.session.events = s.pipe.session.events ++ [e])) : s.Continues s' := by
  obtain ⟨⟨hattached, -⟩, -, hevents⟩ := h
  refine ⟨?_, fun hgone => hattached.trans hgone⟩
  rcases hevents with hsame | hmore
  · rw [hsame]
  · rw [hmore]
    exact List.prefix_append _ _

theorem hdrReceived_continues (h : s.hdrReceived fmt opt io = .ok s') : s.Continues s' := by
  obtain ⟨size, -, h⟩ := bind_eq_ok_iff.mp h
  cases size with
  | none =>
      have hfail := fail_continues h
      exact ⟨hfail.events, hfail.removed⟩
  | some size =>
      obtain ⟨_, -, h⟩ := bind_eq_ok_iff.mp h
      split at h
      · have hannounced := announced_continues (pipeReceived_cases h)
        exact ⟨hannounced.events, hannounced.removed⟩
      · obtain ⟨stream, hrecv, h⟩ := bind_eq_ok_iff.mp h
        obtain rfl := Except.ok.inj h
        exact ⟨(usockRecv_raises hrecv).extends_events, id⟩

theorem deliver_continues {e : StreamEvent} (h : s.deliver fmt opt e io = .ok s') :
    s.Continues s' ∧ (e = .usock .shutdown → s'.attached = false) := by
  cases e with
  | usock type =>
      simp only [deliver, handler] at h
      split at h
      · cases type with
        | sent =>
            obtain ⟨_, -, h⟩ := bind_eq_ok_iff.mp h
            have hannounced := announced_continues (pipeSent_cases h)
            exact ⟨⟨hannounced.events, hannounced.removed⟩, fun he => absurd he (by simp)⟩
        | received =>
            simp only [activeHandler] at h
            split at h
            · exact ⟨hdrReceived_continues h, fun he => absurd he (by simp)⟩
            · have hannounced := announced_continues (pipeReceived_cases h)
              exact ⟨⟨hannounced.events, hannounced.removed⟩, fun he => absurd he (by simp)⟩
            · exact absurd h (by simp)
        | shutdown =>
            obtain rfl := Except.ok.inj h
            exact ⟨⟨List.prefix_refl _, fun _ => rfl⟩, fun _ => rfl⟩
        | error =>
            have hfail := fail_continues h
            exact ⟨⟨hfail.events, fun _ => hfail.removed rfl⟩, fun he => absurd he (by simp)⟩
        | connected => exact absurd h (by simp [activeHandler])
        | accepted => exact absurd h (by simp [activeHandler])
        | acceptError => exact absurd h (by simp [activeHandler])
        | stopped => exact absurd h (by simp [activeHandler])
      · split at h
        · rename_i herror
          refine ⟨fail_continues h, fun he => ?_⟩
          rw [StreamEvent.usock.inj he] at herror
          exact absurd herror (by simp)
        · exact absurd h (by simp)
      · exact absurd h (by simp)
  | pipeIn | pipeOut =>
      obtain rfl := Except.ok.inj h
      exact ⟨⟨List.prefix_refl _, id⟩, fun he => absurd he (by simp)⟩
  | done =>
      obtain rfl := Except.ok.inj h
      exact ⟨⟨List.prefix_refl _, fun _ => rfl⟩, fun he => absurd he (by simp)⟩

/-- An event takes the place of SHUTDOWN in the queue, or the pipe is gone. -/
def Doomed (e : StreamEvent) (s : Session) : Prop :=
  s.attached = false ∨
    ∃ before after, s.pipe.session.events = before ++ .usock .shutdown :: after ∧ e ∉ before

theorem Doomed.continues {e : StreamEvent} (h : Doomed e s) (hcont : s.Continues s') :
    Doomed e s' := by
  rcases h with hgone | ⟨before, after, hevents, hbefore⟩
  · exact Or.inl (hcont.removed hgone)
  · obtain ⟨new, hnew⟩ := hcont.events
    refine Or.inr ⟨before, after ++ new, ?_, hbefore⟩
    rw [← hnew, hevents, List.append_assoc, List.cons_append]

theorem Doomed.step {e : StreamEvent} {l : OwnedLabel} (h : Doomed e s)
    (hstep : (owned fmt opt).step s l s') : Doomed e s' := by
  obtain ⟨hen, hnext⟩ := hstep
  cases l with
  | stop =>
      obtain rfl := Except.ok.inj hnext
      exact Or.inl rfl
  | session l =>
      by_cases hdeliver : ∃ io, l = .deliver io
      · obtain ⟨io, rfl⟩ := hdeliver
        obtain ⟨first, rest, hevents⟩ := List.exists_cons_of_ne_nil hen
        simp only [ownedNext, next, hevents] at hnext
        obtain ⟨hcont, hshutdown⟩ := deliver_continues hnext
        rcases h with hgone | ⟨before, after, hsplit, hbefore⟩
        · exact Or.inl (hcont.removed hgone)
        · rw [hevents] at hsplit
          cases before with
          | nil => exact Or.inl (hshutdown (List.cons.inj hsplit).1)
          | cons b before =>
              have hpopped : Doomed e (s.setStream { s.pipe.session with events := rest }) :=
                Or.inr ⟨before, after, (List.cons.inj hsplit).2,
                  fun he => hbefore (List.mem_cons_of_mem b he)⟩
              exact hpopped.continues hcont
      · have hother : ∀ io, l ≠ .deliver io := fun io hl => hdeliver ⟨io, hl⟩
        by_cases harrive : ∃ bytes, l = .arrive bytes
        · obtain ⟨bytes, rfl⟩ := harrive
          obtain rfl := Except.ok.inj hnext
          exact h
        · obtain ⟨hraises, hattached, -⟩ :=
            next_raises hen hnext hother (fun b hl => harrive ⟨b, hl⟩)
          exact h.continues ⟨hraises.extends_events, fun hgone => hattached.trans hgone⟩

/-- The runs that go on from a state. -/
def ownedFrom (fmt : WireFormat) (opt : Int) (s : Session) : System Session OwnedLabel where
  init t := t = s
  step := (owned fmt opt).step

/-- The event comes when the pipe is gone. -/
theorem Doomed.removed {e : StreamEvent} (he : e.OfPipe) (h : Doomed e s) {t : Session}
    (ht : (ownedFrom fmt opt s).Reachable t) {rest : List StreamEvent}
    (hevents : t.pipe.session.events = e :: rest) : t.attached = false := by
  have hdoomed : Doomed e t := by
    refine ht.invariant ?_ ?_
    · intro t hinit
      rw [show t = s from hinit]
      exact h
    · intro t l t' _ ht hstep
      exact ht.step hstep
  rcases hdoomed with hgone | ⟨before, after, hsplit, hbefore⟩
  · exact hgone
  · rw [hevents] at hsplit
    cases before with
    | nil =>
        have hsame : e = .usock .shutdown := (List.cons.inj hsplit).1
        rcases he with he | he <;> exact absurd (he.symm.trans hsame) (by simp)
    | cons b before =>
        rw [(List.cons.inj hsplit).1] at hbefore
        exact absurd List.mem_cons_self hbefore

/-- No call on the pipe is going on. -/
def Resting (s : Session) : Prop := s.pipe.instate ≠ .receiving ∧ s.pipe.outstate ≠ .sending

theorem pipeSent_resting (h : s.Resting) (hsent : s.pipeSent = .ok s') :
    s'.Resting ∧ s'.pipe.session.events = s.pipe.session.events ++ [.pipeOut] ∧
      StreamEvent.pipeOut ∉ s.pipe.session.events := by
  obtain ⟨⟨p, raised⟩, hpipe, hsent⟩ := bind_eq_ok_iff.mp hsent
  obtain ⟨stream, hraise, hsent⟩ := bind_eq_ok_iff.mp hsent
  obtain rfl := Except.ok.inj hsent
  rcases Pipe.sent_eq_ok.mp hpipe with ⟨hout, -⟩ | ⟨-, rfl, rfl⟩
  · exact absurd hout h.2
  · obtain ⟨_, hnew, hraise⟩ := bind_eq_ok_iff.mp hraise
    obtain rfl := Except.ok.inj hraise
    refine ⟨⟨h.1, by simp⟩, rfl, ?_⟩
    intro hin
    exact (gridAssert_eq_ok_iff.mp hnew) (List.mem_map.mpr ⟨_, hin, rfl⟩)

theorem pipeReceived_resting (h : s.Resting) (hreceived : s.pipeReceived = .ok s') :
    s'.Resting ∧ s'.pipe.session.events = s.pipe.session.events ++ [.pipeIn] ∧
      StreamEvent.pipeIn ∉ s.pipe.session.events := by
  obtain ⟨⟨p, raised⟩, hpipe, hreceived⟩ := bind_eq_ok_iff.mp hreceived
  obtain ⟨stream, hraise, hreceived⟩ := bind_eq_ok_iff.mp hreceived
  obtain rfl := Except.ok.inj hreceived
  rcases Pipe.received_eq_ok.mp hpipe with ⟨hin, -⟩ | ⟨-, rfl, rfl⟩
  · exact absurd hin h.1
  · obtain ⟨_, hnew, hraise⟩ := bind_eq_ok_iff.mp hraise
    obtain rfl := Except.ok.inj hraise
    refine ⟨⟨by simp, h.2⟩, rfl, ?_⟩
    intro hin
    exact (gridAssert_eq_ok_iff.mp hnew) (List.mem_map.mpr ⟨_, hin, rfl⟩)

theorem fail_resting (h : s.Resting) (hfail : s.fail = .ok s') : s'.Resting := by
  obtain ⟨stream, -, hfail⟩ := bind_eq_ok_iff.mp hfail
  obtain rfl := Except.ok.inj hfail
  exact h

theorem hdrReceived_resting (h : s.Resting) (hnext : s.hdrReceived fmt opt io = .ok s') :
    s'.Resting := by
  obtain ⟨size, -, hnext⟩ := bind_eq_ok_iff.mp hnext
  cases size with
  | none =>
      refine fail_resting ?_ hnext
      exact h
  | some size =>
      obtain ⟨_, -, hnext⟩ := bind_eq_ok_iff.mp hnext
      split at hnext
      · refine (pipeReceived_resting ?_ hnext).1
        exact h
      · obtain ⟨stream, -, hnext⟩ := bind_eq_ok_iff.mp hnext
        obtain rfl := Except.ok.inj hnext
        exact h

theorem deliver_resting (h : s.Resting) {e : StreamEvent}
    (hnext : s.deliver fmt opt e io = .ok s') : s'.Resting := by
  cases e with
  | usock type =>
      simp only [deliver, handler] at hnext
      split at hnext
      · cases type with
        | sent =>
            obtain ⟨_, -, hnext⟩ := bind_eq_ok_iff.mp hnext
            refine (pipeSent_resting ?_ hnext).1
            exact h
        | received =>
            simp only [activeHandler] at hnext
            split at hnext
            · exact hdrReceived_resting h hnext
            · refine (pipeReceived_resting ?_ hnext).1
              exact h
            · exact absurd hnext (by simp)
        | shutdown =>
            obtain rfl := Except.ok.inj hnext
            exact h
        | error =>
            refine fail_resting ?_ hnext
            exact h
        | connected => exact absurd hnext (by simp [activeHandler])
        | accepted => exact absurd hnext (by simp [activeHandler])
        | acceptError => exact absurd hnext (by simp [activeHandler])
        | stopped => exact absurd hnext (by simp [activeHandler])
      · split at hnext
        · exact fail_resting h hnext
        · exact absurd hnext (by simp)
      · exact absurd hnext (by simp)
  | pipeIn | pipeOut | done =>
      obtain rfl := Except.ok.inj hnext
      exact h

theorem next_resting (h : s.Resting) {l : Label} (hnext : s.next fmt opt l = .ok s') :
    s'.Resting := by
  cases l with
  | arrive bytes =>
      obtain rfl := Except.ok.inj hnext
      exact h
  | deliver io =>
      simp only [next] at hnext
      split at hnext
      · obtain rfl := Except.ok.inj hnext
        exact h
      · refine deliver_resting ?_ hnext
        exact h
  | workerTask | fdIn io | fdOut io | fdErr =>
      obtain ⟨r, -, hnext⟩ := bind_eq_ok_iff.mp hnext
      obtain ⟨stream, -, hnext⟩ := bind_eq_ok_iff.mp hnext
      obtain rfl := Except.ok.inj hnext
      exact h
  | send msg io =>
      obtain ⟨⟨p, release⟩, hsend, hnext⟩ := bind_eq_ok_iff.mp hnext
      obtain rfl := Except.ok.inj hnext
      obtain ⟨-, p', hvfptr, hdone⟩ := Pipe.send_cases hsend
      obtain ⟨stream, -, hvfptr⟩ := bind_eq_ok_iff.mp hvfptr
      obtain rfl := Except.ok.inj hvfptr
      rcases hdone with ⟨-, rfl, -⟩ | ⟨-, rfl, -⟩
      · exact ⟨h.1, by simp⟩
      · exact ⟨h.1, by simp⟩
  | recv io =>
      obtain ⟨⟨p, m, release⟩, hrecv, hnext⟩ := bind_eq_ok_iff.mp hnext
      obtain rfl := Except.ok.inj hnext
      obtain ⟨-, p', hvfptr, hdone⟩ := Pipe.recv_cases hrecv
      obtain ⟨⟨stream, msg⟩, -, hvfptr⟩ := bind_eq_ok_iff.mp hvfptr
      obtain ⟨rfl, rfl⟩ := Prod.mk.inj (Except.ok.inj hvfptr)
      rcases hdone with ⟨-, rfl, -⟩ | ⟨-, rfl, -⟩
      · exact ⟨by simp, h.2⟩
      · exact ⟨by simp, h.2⟩

theorem resting_reachable (h : (owned fmt opt).Reachable s) : s.Resting := by
  refine h.invariant ?_ ?_
  · rintro s ⟨batch, wire, io, hstart⟩
    obtain ⟨st, -, hstart⟩ := bind_eq_ok_iff.mp hstart
    obtain ⟨st', -, hstart⟩ := bind_eq_ok_iff.mp hstart
    obtain rfl := Except.ok.inj hstart
    exact ⟨by simp [Pipe.start], by simp [Pipe.start]⟩
  · intro s l s' _ hs hstep
    cases l with
    | stop =>
        obtain rfl := Except.ok.inj hstep.2
        exact hs
    | session l => exact next_resting hs hstep.2

/-- The end of a message is announced. -/
theorem activeHandler_announces (h : s.Resting) {type : UsockEvent}
    (hends : s.EndsMessage fmt opt type) (hnext : s.activeHandler fmt opt type io = .ok s') :
    ∃ e : StreamEvent, e.OfPipe ∧ e ∉ s.pipe.session.events ∧
      s'.pipe.session.events = s.pipe.session.events ++ [e] := by
  cases type with
  | sent =>
      obtain ⟨_, -, hnext⟩ := bind_eq_ok_iff.mp hnext
      have hsent := pipeSent_resting (by exact h) hnext
      exact ⟨.pipeOut, Or.inr rfl, hsent.2.2, hsent.2.1⟩
  | received =>
      simp only [activeHandler] at hnext
      cases hin : s.pipe.session.instate with
      | hdr =>
          simp only [EndsMessage, hin] at hends
          simp only [hin, hdrReceived, hends, ok_bind, if_true] at hnext
          obtain ⟨_, -, hnext⟩ := bind_eq_ok_iff.mp hnext
          have hreceived := pipeReceived_resting (by exact h) hnext
          exact ⟨.pipeIn, Or.inl rfl, hreceived.2.2, hreceived.2.1⟩
      | body =>
          simp only [hin] at hnext
          have hreceived := pipeReceived_resting (by exact h) hnext
          exact ⟨.pipeIn, Or.inl rfl, hreceived.2.2, hreceived.2.1⟩
      | hasmsg => exact absurd hends (by simp [EndsMessage, hin])
  | shutdown | error | connected | accepted | acceptError | stopped =>
      exact absurd hends (by simp [EndsMessage])

/-- A message that ends while SHUTDOWN is waiting makes the session raise an event of the
pipe, behind SHUTDOWN. -/
theorem doomed_of_late {l : OwnedLabel} (hs : (owned fmt opt).Reachable s)
    (hlate : ¬s.InTime fmt opt l) (hstep : (owned fmt opt).step s l s') :
    ∃ e, e.OfPipe ∧ e ∈ s'.pipe.session.events ∧ Doomed e s' := by
  have hrest := resting_reachable hs
  cases l with
  | stop => exact absurd trivial hlate
  | session l =>
      cases l with
      | deliver io =>
          simp only [InTime, not_forall, not_not] at hlate
          obtain ⟨type, rest, hevents, hactive, hends, hshutdown⟩ := hlate
          obtain ⟨before, after, hsplit⟩ := List.append_of_mem hshutdown
          -- what is raised joins the queue behind SHUTDOWN
          have hbehind : ∀ e : StreamEvent, e.OfPipe → e ∉ rest →
              s'.pipe.session.events = rest ++ [e] →
              ∃ e, e.OfPipe ∧ e ∈ s'.pipe.session.events ∧ Doomed e s' := by
            intro e he hnew hmore
            refine ⟨e, he, by rw [hmore]; simp, Or.inr ⟨before, after ++ [e], ?_, ?_⟩⟩
            · rw [hmore, hsplit, List.append_assoc, List.cons_append]
            · rw [hsplit] at hnew
              exact fun hin => hnew (List.mem_append_left _ hin)
          have hnext := hstep.2
          simp only [ownedNext, next, hevents, deliver, handler] at hnext
          split at hnext
          · have hpopped : Resting (s.setStream { s.pipe.session with events := rest }) := hrest
            obtain ⟨e, he, hnew, hmore⟩ := activeHandler_announces hpopped hends hnext
            exact hbehind e he hnew hmore
          · rename_i hstate
            exact absurd (hactive.symm.trans hstate) (by simp)
          · rename_i hstate
            exact absurd (hactive.symm.trans hstate) (by simp)
      | arrive bytes | workerTask | fdIn io | fdOut io | fdErr | send msg io | recv io =>
          exact absurd trivial hlate

end Session

/-! ## Sessions within the process -/

theorem PipeEvent.raisedBy_self (p : Pipe Unit) : raisedBy p p = [] := by
  have hin : ¬(p.instate = .async ∧ p.instate = .idle) := by
    rintro ⟨hasync, hidle⟩
    exact absurd (hasync.symm.trans hidle) (by simp)
  have hout : ¬(p.outstate ≠ .idle ∧ p.outstate = .idle) := fun h => h.1 h.2
  simp only [raisedBy, if_neg hin, if_neg hout, List.append_nil]

namespace Pair

/-- An active session has its pipe in the socket. -/
def Offered (self : Pair) : Prop :=
  ∀ y, (self.link.ends y).state = .active → self.added y = true

/-- What a step does to the pipes: those it raises an event of are in their sockets
afterwards, and it takes away no others than it may. -/
structure Keeps (away : Side → Prop) (before after : Pair) : Prop where
  offered : after.Offered
  raised : ∀ y, PipeEvent.raisedBy (before.pipe y) (after.pipe y) ≠ [] → after.added y = true
  removed : ∀ y, after.added y = false → before.added y = false ∨ away y

variable {x : Side} {self self' : Pair} {msg : Msg} {refused : Bool} {e : PeerEvent}
  {away : Side → Prop}

theorem Offered.samePhase (hoff : self.Offered) (hadded : self'.added = self.added)
    (hsame : ∀ y, (self.link.ends y).SamePhase (self'.link.ends y)) : self'.Offered := by
  intro y hy
  rw [hadded]
  rw [(hsame y).1] at hy
  exact hoff y hy

theorem raisedBy_same (h : self'.pipe = self.pipe) (y : Side) :
    PipeEvent.raisedBy (self.pipe y) (self'.pipe y) = [] := by
  rw [h]
  exact PipeEvent.raisedBy_self _

/-- Only the pipe whose states change raises events. -/
theorem raisedBy_withStates {i : InState} {o : OutState} {y : Side} (hy : y ≠ x) :
    PipeEvent.raisedBy (self.pipe y) ((self.withStates x i o).pipe y) = [] := by
  simp only [withStates, if_neg hy]
  exact PipeEvent.raisedBy_self _

theorem withStates_raised {i : InState} {o : OutState} (hadded : self'.added x = true)
    (hpipe : self'.pipe = (self.withStates x i o).pipe) (y : Side)
    (hraised : PipeEvent.raisedBy (self.pipe y) (self'.pipe y) ≠ []) : self'.added y = true := by
  by_cases hy : y = x
  · rw [hy]
    exact hadded
  · rw [hpipe] at hraised
    exact absurd (raisedBy_withStates hy) hraised

theorem send_keeps (hoff : self.Offered) (h : self.send x msg = .ok self') :
    Keeps (fun _ => False) self self' := by
  obtain ⟨-, hactive, -, rfl⟩ := send_cases h
  exact ⟨hoff.samePhase rfl (Link.setEnd_samePhase ⟨rfl, rfl⟩),
    withStates_raised (hoff x hactive) rfl, fun y hy => Or.inl hy⟩

theorem retry_samePhase {link link' : Link} (h : Sinproc.retry x link = .ok link') (y : Side) :
    (link.ends y).SamePhase (link'.ends y) := by
  rcases Sinproc.retry_cases h with ⟨rfl, -⟩ | ⟨-, rfl, -⟩ | ⟨q, -, -, rfl⟩
  · exact ⟨rfl, rfl⟩
  · exact ⟨rfl, rfl⟩
  · simp only [Link.withNotice_ends]
    apply Link.setEnds_samePhase
    · exact ⟨rfl, rfl⟩
    · exact ⟨rfl, rfl⟩

theorem recv_keeps (hoff : self.Offered) (hadded : self.added x = true)
    (h : self.recv x = .ok (self', msg)) : Keeps (fun _ => False) self self' := by
  obtain ⟨-, -, q, link, -, hretry, rfl⟩ := recv_cases h
  refine ⟨hoff.samePhase rfl ?_, withStates_raised hadded rfl, fun y hy => Or.inl hy⟩
  intro y
  have htaken : (self.link.ends x).SamePhase { self.link.ends x with msgqueue := q } := ⟨rfl, rfl⟩
  have hretried := retry_samePhase hretry y
  have hset := Link.setEnd_samePhase htaken y
  exact ⟨hretried.1.trans hset.1, hretried.2.trans hset.2⟩

/-- A pipe is started and its session becomes active. -/
theorem started_keeps (hoff : self.Offered) {s : Sinproc} (link : Link)
    (hlink : link.ends = (self.link.setEnd x s).ends) :
    Keeps (fun y => y = x) self { self.started x with link := link } := by
  refine ⟨?_, withStates_raised (by simp [started]) rfl, ?_⟩
  · intro y hy
    simp only [hlink, Link.setEnd_ends] at hy
    simp only [started]
    split
    · rfl
    · rename_i hyx
      rw [if_neg hyx] at hy
      exact hoff y hy
  · intro y hy
    simp only [started] at hy
    split at hy
    · exact absurd hy (by simp)
    · exact Or.inl hy

theorem handled_keeps (hoff : self.Offered) (h : Handled self x e self') :
    Keeps (fun y => y = x) self self' := by
  cases h with
  | ready hstate => exact started_keeps hoff _ rfl
  | accepted hstate k => exact started_keeps hoff _ rfl
  | full hstate hsend =>
      exact ⟨hoff.samePhase rfl (Link.setEnd_samePhase ⟨rfl, rfl⟩),
        fun y hr => absurd (raisedBy_same rfl y) hr, fun y hy => Or.inl hy⟩
  | queued hstate hsend hpipe =>
      refine ⟨hoff.samePhase rfl ?_, withStates_raised (hoff x hstate) rfl, fun y hy => Or.inl hy⟩
      intro y
      simp only [Link.withNotice_ends]
      apply Link.setEnds_samePhase
      · exact ⟨rfl, rfl⟩
      · exact ⟨rfl, rfl⟩
  | acknowledged hstate hsending hpipe =>
      exact ⟨hoff.samePhase rfl (Link.setEnd_samePhase ⟨rfl, rfl⟩),
        withStates_raised (hoff x hstate) rfl, fun y hy => Or.inl hy⟩
  | disconnected hstate =>
      refine ⟨?_, fun y hr => absurd (raisedBy_same rfl y) hr, ?_⟩
      · intro y hy
        simp only [Link.setEnd_ends, Link.withNotice_ends] at hy
        split at hy
        · exact absurd hy (by simp)
        · rename_i hyx
          simp only [stopPipe, if_neg hyx]
          exact hoff y hy
      · intro y hy
        simp only [stopPipe] at hy
        split at hy
        · rename_i hyx
          exact Or.inr hyx
        · exact Or.inl hy
  | ignored hstate => exact ⟨hoff, fun y hr => absurd (raisedBy_same rfl y) hr, fun y hy => Or.inl hy⟩

/-- A session that is given another state, of which it is not active. -/
theorem setEnd_keeps (hoff : self.Offered) {s : Sinproc} (hs : s.state ≠ .active) :
    Keeps away self (self.setEnd x s) := by
  refine ⟨?_, fun y hr => absurd (raisedBy_same rfl y) hr, fun y hy => Or.inl hy⟩
  intro y hy
  simp only [setEnd, Link.setEnd_ends] at hy
  split at hy
  · exact absurd hy hs
  · exact hoff y hy

theorem Keeps.trans_same {self'' : Pair} (h : Keeps away self self') (hpipe : self'.pipe = self.pipe)
    (h' : Keeps away self' self'') : Keeps away self self'' := by
  refine ⟨h'.offered, ?_, ?_⟩
  · intro y hraised
    rw [← hpipe] at hraised
    exact h'.raised y hraised
  · intro y hy
    rcases h'.removed y hy with hy | hy
    · exact h.removed y hy
    · exact Or.inr hy

theorem finish_keeps (hoff : self.Offered) (h : self.finish x = .ok self') :
    Keeps away self self' := by
  rcases finish_cases h with rfl | ⟨hstate, rfl⟩
  · exact ⟨hoff, fun y hr => absurd (raisedBy_same rfl y) hr, fun y hy => Or.inl hy⟩
  · exact setEnd_keeps hoff (by simp [hstate])

theorem shutdown_keeps (hoff : self.Offered) (h : self.shutdown x e = .ok self') :
    Keeps away self self' := by
  unfold shutdown at h
  simp only at h
  split at h
  · exact finish_keeps hoff h
  · split at h
    · split at h
      · have hset : Keeps away self
            (self.setEnd x { self.link.ends x with state := .stopping }) :=
          setEnd_keeps hoff (by simp)
        exact hset.trans_same rfl (finish_keeps hset.offered h)
      · exact absurd h (by simp)
    · exact absurd h (by simp)

theorem feed_keeps (hoff : self.Offered) (h : self.feed x refused e = .ok self') :
    Keeps (fun y => y = x) self self' := by
  have harrived : Keeps (fun y => y = x) self { self with link := self.link.arrived x e } := by
    refine ⟨?_, fun y hr => absurd (raisedBy_same rfl y) hr, fun y hy => Or.inl hy⟩
    intro y hy
    rw [Link.arrived_ends] at hy
    exact hoff y hy
  unfold feed at h
  simp only at h
  split at h
  · exact harrived.trans_same rfl (shutdown_keeps harrived.offered h)
  · exact harrived.trans_same rfl (handled_keeps harrived.offered (handled h))

theorem stop_keeps (hoff : self.Offered) (h : self.stop x = .ok self') :
    Keeps (fun y => y = x) self self' := by
  unfold stop at h
  simp only at h
  split at h
  · obtain rfl := Except.ok.inj h
    exact ⟨hoff, fun y hr => absurd (raisedBy_same rfl y) hr, fun y hy => Or.inl hy⟩
  · split at h
    · split at h
      · exact absurd h (by simp)
      · obtain ⟨p, hp, h⟩ := bind_eq_ok_iff.mp h
        obtain ⟨link, hraise, hp⟩ := bind_eq_ok_iff.mp hp
        obtain ⟨-, rfl⟩ := Link.raiseNotice_eq_ok.mp hraise
        obtain rfl := Except.ok.inj hp
        have hgone : Keeps (fun y => y = x) self
            (setEnd { self.stopPipe x with link := self.link.withNotice x.peer .disconnect true } x
              { self.link.ends x with fsm := .stopping, state := .stoppingPeer }) := by
          refine ⟨?_, fun y hr => absurd (raisedBy_same rfl y) hr, ?_⟩
          · intro y hy
            simp only [setEnd, Link.setEnd_ends, Link.withNotice_ends] at hy
            split at hy
            · exact absurd hy (by simp)
            · rename_i hyx
              simp only [setEnd, stopPipe, if_neg hyx]
              exact hoff y hy
          · intro y hy
            simp only [setEnd, stopPipe] at hy
            split at hy
            · rename_i hyx
              exact Or.inr hyx
            · exact Or.inl hy
        exact hgone.trans_same rfl (finish_keeps hgone.offered h)
    · have hset : Keeps (fun y => y = x) self (self.setEnd x
          { self.link.ends x with fsm := .stopping, state := .stopping }) :=
        setEnd_keeps hoff (by simp)
      exact hset.trans_same rfl (finish_keeps hset.offered h)

end Pair

namespace LocalPipes

/-- The sockets have the pipes of the events that are queued. -/
structure Inv (p : LocalPipes) : Prop where
  offered : p.traffic.pair.Offered
  quiet : ∀ x, p.traffic.pair.added x = false → p.events x = []

variable {p p' : LocalPipes}

theorem Inv.traffic (h : p.Inv) {away : Side → Prop} {t : Traffic}
    (hkeeps : Pair.Keeps away p.traffic.pair t.pair) (haway : ∀ x, away x → p.events x = []) :
    Inv { traffic := t
          events := fun y => p.events y ++
            PipeEvent.raisedBy (p.traffic.pair.pipe y) (t.pair.pipe y) } := by
  refine ⟨hkeeps.offered, ?_⟩
  intro x hgone
  have hraised : PipeEvent.raisedBy (p.traffic.pair.pipe x) (t.pair.pipe x) = [] := by
    by_contra hsome
    exact absurd ((hkeeps.raised x hsome).symm.trans hgone) (by simp)
  have hqueue : p.events x = [] := by
    rcases hkeeps.removed x hgone with hbefore | hx
    · exact h.quiet x hbefore
    · exact haway x hx
  simp only [hraised, hqueue, List.append_nil]

/-- Whose pipe a step of the connection may remove. -/
def Removes : Traffic.Label → Side → Prop
  | .send _ _, _ => False
  | .recv _, _ => False
  | .arrive x _ _, y => y = x
  | .stop x, y => y = x

/-- What a step of the connection does to the pipes. -/
theorem traffic_keeps {t t' : Traffic} {l : Traffic.Label} (hoff : t.pair.Offered)
    (h : t.next l = some t') : Pair.Keeps (Removes l) t.pair t'.pair := by
  cases l with
  | send x msg =>
      simp only [Traffic.next] at h
      split at h
      · split at h
        · rename_i hsend
          obtain rfl := Option.some.inj h
          exact Pair.send_keeps hoff hsend
        · exact absurd h (by simp)
      · exact absurd h (by simp)
  | recv x =>
      simp only [Traffic.next] at h
      split at h
      · rename_i hadded
        split at h
        · rename_i hrecv
          obtain rfl := Option.some.inj h
          exact Pair.recv_keeps hoff hadded hrecv
        · exact absurd h (by simp)
      · exact absurd h (by simp)
  | arrive x e refused =>
      simp only [Traffic.next] at h
      split at h
      · split at h
        · rename_i hfeed
          obtain rfl := Option.some.inj h
          exact Pair.feed_keeps hoff hfeed
        · exact absurd h (by simp)
      · exact absurd h (by simp)
  | stop x =>
      simp only [Traffic.next] at h
      split at h
      · rename_i hstop
        obtain rfl := Option.some.inj h
        exact Pair.stop_keeps hoff hstop
      · exact absurd h (by simp)

theorem inv_step {l : Label} (h : p.Inv) (hstep : system.step p l p') : p'.Inv := by
  obtain ⟨hen, hnext⟩ := hstep
  cases l with
  | traffic l =>
      obtain ⟨t, ht, rfl⟩ := Option.map_eq_some_iff.mp hnext
      refine h.traffic (traffic_keeps h.offered ht) ?_
      intro x hx
      cases l with
      | send y msg => exact absurd hx id
      | recv y => exact absurd hx id
      | arrive y e refused =>
          rw [show x = y from hx]
          exact hen
      | stop y =>
          rw [show x = y from hx]
          exact hen
  | deliver x =>
      obtain rfl := Option.some.inj hnext
      refine ⟨h.offered, ?_⟩
      intro y hgone
      have hnil := h.quiet y hgone
      simp only [hnil, List.tail_nil, ite_self]

theorem inv_init (h : system.init p) : p.Inv := by
  obtain ⟨⟨x, sndprio, rcvprio, rcvbuf, ht⟩, hevents⟩ := h
  refine ⟨?_, fun y _ => by rw [hevents]⟩
  rw [ht]
  intro y hy
  simp only [Pair.accepted] at hy
  split at hy
  · exact absurd hy (by simp)
  · exact absurd hy (by simp)

theorem silent_reachable (h : system.Reachable p) : p.Silent := by
  have hinv : p.Inv := by
    refine h.invariant ?_ ?_
    · intro s hs
      exact inv_init hs
    · intro s l s' _ hs hstep
      exact inv_step hs hstep
  intro x hqueue
  by_contra hgone
  exact hqueue (hinv.quiet x (by simpa using hgone))

end LocalPipes

/-- Over TCP and IPC no event of a pipe comes when the pipe is gone, in every run in which
no message ends while SHUTDOWN is waiting; where one does, an event of the pipe is queued
that comes when it is gone.  Within the process none ever comes. -/
theorem removed_pipes_silent (fmt : WireFormat) (opt : Int) :
    (∀ s : Session,
      ((Session.owned fmt opt).restrict (Session.InTime fmt opt)).Reachable s → s.Silent) ∧
    (∀ (s s' : Session) (l : Session.OwnedLabel),
      (Session.owned fmt opt).Reachable s → ¬s.InTime fmt opt l →
      (Session.owned fmt opt).step s l s' →
      ∃ e : StreamEvent, e.OfPipe ∧ e ∈ s'.pipe.session.events ∧
        ∀ t rest, (Session.ownedFrom fmt opt s').Reachable t →
          t.pipe.session.events = e :: rest → t.attached = false) ∧
    ∀ p, LocalPipes.system.Reachable p → p.Silent := by
  refine ⟨?_, ?_, ?_⟩
  · intro s hs
    exact (Session.orderly_reachable hs).silent
  · intro s s' l hs hlate hstep
    obtain ⟨e, he, hin, hdoomed⟩ := Session.doomed_of_late hs hlate hstep
    exact ⟨e, he, hin, fun t rest ht hevents => hdoomed.removed he ht hevents⟩
  · intro p hp
    exact LocalPipes.silent_reachable hp

namespace Session

/-- A step as it is computed. -/
def ownedTry (fmt : WireFormat) (opt : Int) (s : Session) (l : OwnedLabel) : Option Session :=
  System.tryStep (s.OwnedEnabled l) (s.ownedNext fmt opt l)

theorem ownedTry_step {l : OwnedLabel} {s s' : Session} {fmt : WireFormat} {opt : Int}
    (h : s.ownedTry fmt opt l = some s') : (owned fmt opt).step s l s' :=
  System.tryStep_eq_some h

/-- A step that is made while SHUTDOWN is not queued. -/
def calmTry (fmt : WireFormat) (opt : Int) (s : Session) (l : OwnedLabel) : Option Session :=
  System.tryStep (StreamEvent.usock .shutdown ∉ s.pipe.session.events ∧ s.OwnedEnabled l)
    (s.ownedNext fmt opt l)

theorem calmTry_step {l : OwnedLabel} {s s' : Session} {fmt : WireFormat} {opt : Int}
    (h : s.calmTry fmt opt l = some s') :
    ((owned fmt opt).restrict (InTime fmt opt)).step s l s' := by
  obtain ⟨⟨hcalm, hen⟩, hnext⟩ := System.tryStep_eq_some h
  refine ⟨?_, hen, hnext⟩
  cases l with
  | stop => trivial
  | session l =>
      cases l with
      | deliver io =>
          intro e rest hevents _ _ hin
          exact hcalm (by rw [hevents]; exact List.mem_cons_of_mem _ hin)
      | arrive bytes => trivial
      | workerTask => trivial
      | fdIn io => trivial
      | fdOut io => trivial
      | fdErr => trivial
      | send msg io => trivial
      | recv io => trivial

/-- A TCP session that finds the header of its first message behind the handshake, when
OUT is still queued. -/
def ownedRun (next : Session → OwnedLabel → Option Session) (labels : List OwnedLabel) :
    Option Session :=
  match start Stcp.wireFormat [0, 0, 0, 0, 0, 0, 0, 5] [] (.bytes 0) with
  | .error _ => none
  | .ok s => System.follow next s labels

theorem ownedRun_reachable {next : Session → OwnedLabel → Option Session}
    {S : System Session OwnedLabel} (hinit : ∀ s, (owned Stcp.wireFormat (-1)).init s → S.init s)
    (hnext : ∀ s l s', next s l = some s' → S.step s l s') {labels : List OwnedLabel}
    {s : Session} (h : ownedRun next labels = some s) : S.Reachable s := by
  unfold ownedRun at h
  split at h
  · exact absurd h (by simp)
  · rename_i s₀ hstart
    have hbegun : S.init s₀ := hinit s₀ ⟨_, _, _, hstart⟩
    exact (System.Reachable.start hbegun).follow hnext h

/-- OUT is delivered and the socket type sends; the body of the message is asked for when
the connection is lost. -/
def lostLabels : List OwnedLabel :=
  [.session (.deliver (.bytes 0)), .session (.send { body := [7] } (.bytes 100)),
    .session (.deliver .reset)]

/-- SENT is waiting before SHUTDOWN. -/
theorem ownedRun_lost : ∃ s, (owned Stcp.wireFormat (-1)).Reachable s ∧
    s.pipe.session.events = [.usock .sent, .usock .shutdown] ∧
    s.pipe.session.state = .active ∧
    ∃ s', (owned Stcp.wireFormat (-1)).step s (.session (.deliver (.bytes 0))) s' := by
  have hrun : (ownedRun (ownedTry Stcp.wireFormat (-1)) lostLabels).any (fun s =>
      s.pipe.session.events = [.usock .sent, .usock .shutdown] ∧
        s.pipe.session.state = .active ∧
        (s.ownedTry Stcp.wireFormat (-1) (.session (.deliver (.bytes 0)))).isSome) =
      true := by decide +kernel
  obtain ⟨s, hs, hp⟩ := (Option.any_eq_true _ _).mp hrun
  obtain ⟨hevents, hstate, hsome⟩ := of_decide_eq_true hp
  obtain ⟨s', hstep⟩ := Option.isSome_iff_exists.mp hsome
  exact ⟨s, ownedRun_reachable (fun _ h => h) (fun _ _ _ => ownedTry_step) hs, hevents, hstate,
    s', ownedTry_step hstep⟩

end Session

/-- OUT comes when SHUTDOWN has removed the pipe. -/
theorem not_removed_pipes_silent :
    ¬∀ s, (Session.owned Stcp.wireFormat (-1)).Reachable s → s.Silent := by
  intro hall
  have hrun : (Session.ownedRun (Session.ownedTry Stcp.wireFormat (-1)) (Session.lostLabels ++
      [.session (.deliver (.bytes 0)), .session (.deliver (.bytes 0))])).any (fun s =>
        s.pipe.session.events = [.pipeOut] ∧ s.attached = false) = true := by decide +kernel
  obtain ⟨s, hs, hp⟩ := (Option.any_eq_true _ _).mp hrun
  obtain ⟨hevents, hremoved⟩ := of_decide_eq_true hp
  have hreach : (Session.owned Stcp.wireFormat (-1)).Reachable s :=
    Session.ownedRun_reachable (fun _ h => h) (fun _ _ _ => Session.ownedTry_step) hs
  have hsilent := hall s hreach _ _ hevents (Or.inr rfl)
  exact absurd (hremoved.symm.trans hsilent) (by simp)

/-- A connection that breaks while the session waits for a body is silent once its pipe is
gone; SENT before SHUTDOWN queues an OUT that is not. -/
theorem removed_pipes_silent_broken :
    (∃ s, ((Session.owned Stcp.wireFormat (-1)).restrict
        (Session.InTime Stcp.wireFormat (-1))).Reachable s ∧
      s.attached = false ∧ s.pipe.session.events = [.done] ∧ s.Silent) ∧
    (∃ (s s' : Session) (e : StreamEvent), (Session.owned Stcp.wireFormat (-1)).Reachable s ∧
      (Session.owned Stcp.wireFormat (-1)).step s (.session (.deliver (.bytes 0))) s' ∧
      e.OfPipe ∧ e ∈ s'.pipe.session.events ∧
        ∀ t rest, (Session.ownedFrom Stcp.wireFormat (-1) s').Reachable t →
          t.pipe.session.events = e :: rest → t.attached = false) ∧
    ∃ p, LocalPipes.system.Reachable p ∧ p.Silent := by
  refine ⟨?_, ?_, ?_⟩
  · have hrun : (Session.ownedRun (Session.calmTry Stcp.wireFormat (-1))
        [.session (.deliver (.bytes 0)), .session (.deliver (.bytes 0)), .session .fdErr,
          .session (.deliver (.bytes 0))]).any (fun s =>
            s.attached = false ∧ s.pipe.session.events = [.done]) = true := by decide +kernel
    obtain ⟨s, hs, hp⟩ := (Option.any_eq_true _ _).mp hrun
    obtain ⟨hgone, hevents⟩ := of_decide_eq_true hp
    have hreach : ((Session.owned Stcp.wireFormat (-1)).restrict
        (Session.InTime Stcp.wireFormat (-1))).Reachable s := by
      refine Session.ownedRun_reachable ?_ ?_ hs
      · intro s h
        exact h
      · intro s l s' h
        exact Session.calmTry_step h
    exact ⟨s, hreach, hgone, hevents, (removed_pipes_silent _ _).1 s hreach⟩
  · obtain ⟨s, hreach, hevents, hstate, s', hstep⟩ := Session.ownedRun_lost
    have hlate : ¬s.InTime Stcp.wireFormat (-1) (.session (.deliver (.bytes 0))) := by
      intro htime
      exact htime _ _ hevents hstate trivial (by simp)
    obtain ⟨e, he, hin, hgone⟩ := (removed_pipes_silent _ _).2.1 s s' _ hreach hlate hstep
    exact ⟨s, s', e, hreach, hstep, he, hin, hgone⟩
  · refine ⟨{ traffic := { pair := .accepted .left (fun _ => 8) (fun _ => 8) (fun _ => 100) } }, ?_⟩
    have hreach : LocalPipes.system.Reachable
        { traffic := { pair := .accepted .left (fun _ => 8) (fun _ => 8) (fun _ => 100) } } :=
      .start ⟨⟨_, _, _, _, rfl⟩, rfl⟩
    exact ⟨hreach, (removed_pipes_silent Stcp.wireFormat (-1)).2.2 _ hreach⟩

end GridMq.Transports
