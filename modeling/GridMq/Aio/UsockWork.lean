import GridMq.Aio.UsockStream

set_option autoImplicit false

/-!
# The worker and a usock whose connection can break

What the worker thread can do to a connected usock, as one function, and what comes of it:
a usock that is up moves bytes and reports the end of a request, one that has broken
reports that and nothing else.
-/

namespace GridMq.Aio.Usock

variable {u : Usock} {wire : List UInt8}

/-- What the worker finds to do: a task, or the descriptor readable, writable or broken. -/
inductive Work where
  | task
  | fdIn (io : Io)
  | fdOut (io : Io)
  | fdErr
  deriving DecidableEq, Repr

/-- When it can find that. -/
def Ready (self : Usock) : Work → Prop
  | .task => self.tasks ≠ []
  | .fdIn _ => self.pollIn = true
  | .fdOut _ => self.pollOut = true
  | .fdErr => self.fd = true

instance (self : Usock) (w : Work) : Decidable (self.Ready w) :=
  match w with
  | .task => inferInstanceAs (Decidable (_ ≠ _))
  | .fdIn _ => inferInstanceAs (Decidable (_ = _))
  | .fdOut _ => inferInstanceAs (Decidable (_ = _))
  | .fdErr => inferInstanceAs (Decidable (_ = _))

/-- The worker does it: what is left on the wire, what was written, and the event for the
owner. -/
def work (self : Usock) (wire : List UInt8) :
    Work → Except Abort (Usock × List UInt8 × List UInt8 × Option UsockEvent)
  | .task => do
      let r ← self.runTask
      return (r.1, wire, [], r.2)
  | .fdIn io => do
      let r ← self.fdIn wire io
      return (r.1, r.2.1, [], r.2.2)
  | .fdOut io => do
      let r ← self.fdOut io
      return (r.1, wire, r.2.1, r.2.2)
  | .fdErr => do
      let r ← self.fdErr
      return (r.1, wire, [], r.2)

/-- The `struct grid_fsm_event` of a usock. -/
inductive Item where
  | established | sent | received | error | stopped
  deriving DecidableEq, Repr

/-- Which of them an event is raised through. -/
def item : UsockEvent → Item
  | .connected => .established
  | .accepted => .established
  | .sent => .sent
  | .received => .received
  | .error => .error
  | .acceptError => .error
  | .shutdown => .error
  | .stopped => .stopped

/-! ## Usocks that have broken -/

/-- The worker has given the connection up. -/
structure Down (u : Usock) : Prop where
  state : u.state = .done
  fd : u.fd = false
  pollIn : u.pollIn = false
  pollOut : u.pollOut = false

/-- A call has found the connection broken, or the worker has. -/
def Broken (u : Usock) : Prop := u.state = .removingFd ∨ u.Down

theorem down_fdError (u : Usock) : u.fdError.1.Down := ⟨rfl, rfl, rfl, rfl⟩

/-- A task asks the poller for something or takes the descriptor away. -/
theorem feedTask_event {task : UsockTask} {u' : Usock} {e : Option UsockEvent}
    (h : u.feedTask task = .ok (u', e)) :
    e = none ∧ u'.state = u.state ∧ u'.fd = u.fd ∧ (u.Down → u'.Down) ∨
      e = some .error ∧ u.state = .removingFd ∧ u'.Down := by
  cases task with
  | stop =>
      unfold feedTask at h
      simp only at h
      split at h
      · rename_i hstate
        cases h
        exact Or.inr ⟨rfl, hstate, down_fdError u⟩
      · exact absurd h (by simp)
  | send =>
      cases h
      exact Or.inl ⟨rfl, rfl, rfl, fun hd => ⟨hd.state, hd.fd, hd.pollIn, hd.fd⟩⟩
  | recv =>
      cases h
      exact Or.inl ⟨rfl, rfl, rfl, fun hd => ⟨hd.state, hd.fd, hd.fd, hd.pollOut⟩⟩
  | connected =>
      cases h
      exact Or.inl ⟨rfl, rfl, rfl, fun hd => ⟨hd.state, hd.fd, rfl, rfl⟩⟩
  | connecting =>
      cases h
      exact Or.inl ⟨rfl, rfl, rfl, fun hd => ⟨hd.state, hd.fd, rfl, hd.fd⟩⟩
  | accept =>
      cases h
      exact Or.inl ⟨rfl, rfl, rfl, fun hd => ⟨hd.state, hd.fd, hd.fd, rfl⟩⟩

theorem runTask_event {u' : Usock} {e : Option UsockEvent} (htasks : u.tasks ≠ [])
    (h : u.runTask = .ok (u', e)) :
    e = none ∧ u'.state = u.state ∧ u'.fd = u.fd ∧ (u.Down → u'.Down) ∨
      e = some .error ∧ u.state = .removingFd ∧ u'.Down := by
  unfold runTask at h
  split at h
  · rename_i hnil
    exact absurd hnil htasks
  · rename_i task tasks hcons
    rcases feedTask_event h with ⟨he, hstate, hfd, hdown⟩ | hgone
    · exact Or.inl ⟨he, hstate, hfd, fun hd => hdown ⟨hd.state, hd.fd, hd.pollIn, hd.pollOut⟩⟩
    · exact Or.inr hgone

/-- A broken usock reports that the descriptor is gone, and nothing else. -/
theorem work_broken {w : Work} {u' : Usock} {wire' written : List UInt8}
    {e : Option UsockEvent} (hu : u.Broken) (hready : u.Ready w)
    (h : u.work wire w = .ok (u', wire', written, e)) :
    wire' = wire ∧ written = [] ∧
      (e = none ∧ u'.Broken ∨ e = some .error ∧ u.state = .removingFd ∧ u'.Down) := by
  rcases hu with hstate | hdown
  · cases w with
    | task =>
        obtain ⟨r, hr, hret⟩ := bind_eq_ok_iff.mp h
        cases hret
        refine ⟨rfl, rfl, ?_⟩
        rcases runTask_event hready hr with ⟨he, hsame, -⟩ | hgone
        · exact Or.inl ⟨he, Or.inl (hsame.trans hstate)⟩
        · exact Or.inr hgone
    | fdIn io =>
        simp only [work, fdIn, hstate, ok_bind, pure_eq_ok] at h
        cases h
        exact ⟨rfl, rfl, Or.inl ⟨rfl, Or.inl hstate⟩⟩
    | fdOut io =>
        simp only [work, fdOut, hstate, ok_bind, pure_eq_ok] at h
        cases h
        exact ⟨rfl, rfl, Or.inl ⟨rfl, Or.inl hstate⟩⟩
    | fdErr =>
        simp only [work, fdErr, hstate, ok_bind, pure_eq_ok] at h
        cases h
        exact ⟨rfl, rfl, Or.inl ⟨rfl, Or.inl hstate⟩⟩
  · cases w with
    | task =>
        obtain ⟨r, hr, hret⟩ := bind_eq_ok_iff.mp h
        cases hret
        refine ⟨rfl, rfl, ?_⟩
        -- the task is left from the time before the break
        rcases runTask_event hready hr with ⟨he, -, -, hstays⟩ | ⟨-, hstate, -⟩
        · exact Or.inl ⟨he, Or.inr (hstays hdown)⟩
        · exact absurd (hdown.state.symm.trans hstate) (by simp)
    | fdIn io => exact absurd (hdown.pollIn.symm.trans hready) (by simp)
    | fdOut io => exact absurd (hdown.pollOut.symm.trans hready) (by simp)
    | fdErr => exact absurd (hdown.fd.symm.trans hready) (by simp)

/-! ## Usocks that are up -/

/-- Both halves of a usock are in order. -/
structure Up (u : Usock) : Prop where
  steady : u.Steady
  sends : u.NotSending ∨ u.Sending
  receives : u.NotReceiving ∨ u.Receiving

/-- The worker has moved bytes and has perhaps come to the end of a request. -/
structure Moved (u : Usock) (wire : List UInt8) (u' : Usock) (wire' written : List UInt8)
    (e : Option UsockEvent) : Prop where
  steady : u'.Steady
  read : u'.inBuf ++ (u'.batch ++ wire') = u.inBuf ++ (u.batch ++ wire)
  length : u'.inBuf.length + u'.inLen = u.inBuf.length + u.inLen
  wrote : written ++ u'.out.flatten = u.out.flatten
  outcome :
    e = none ∧ (u.NotSending → u'.NotSending) ∧ (u.Sending → u'.Sending) ∧
      (u.NotReceiving → u'.NotReceiving) ∧ (u.Receiving → u'.Receiving) ∨
    e = some .sent ∧ u.Sending ∧ u'.NotSending ∧
      (u.NotReceiving → u'.NotReceiving) ∧ (u.Receiving → u'.Receiving) ∨
    e = some .received ∧ u.Receiving ∧ u'.NotReceiving ∧
      (u.NotSending → u'.NotSending) ∧ (u.Sending → u'.Sending)

/-- A usock moves bytes or breaks. -/
theorem work_up {w : Work} {u' : Usock} {wire' written : List UInt8}
    {e : Option UsockEvent} (hu : u.Up) (hready : u.Ready w)
    (h : u.work wire w = .ok (u', wire', written, e)) :
    Moved u wire u' wire' written e ∨
      wire' = wire ∧ written = [] ∧ e = some .error ∧ u'.Down := by
  cases w with
  | task =>
      left
      obtain ⟨r, hr, hret⟩ := bind_eq_ok_iff.mp h
      cases hret
      cases htasks : u.tasks with
      | nil => exact absurd htasks hready
      | cons task tasks =>
          obtain ⟨v, hcall, hv, hin, hout, -⟩ := runTask_spec hu.steady htasks
          rw [hcall] at hr
          cases hr
          refine ⟨hv, by rw [hin.inBuf, hin.batch], by rw [hin.inBuf, hin.inLen],
            by rw [hout.out, List.nil_append], Or.inl ⟨rfl, ?_⟩⟩
          exact ⟨hout.notSending, hout.sending, hin.notReceiving, hin.receiving⟩
  | fdIn io =>
      obtain ⟨r, hr, hret⟩ := bind_eq_ok_iff.mp h
      cases hret
      have hrec : u.Receiving := hu.receives.resolve_left fun hnot => by
        have := hnot.pollIn.symm.trans hready
        exact absurd this (by simp)
      cases io with
      | reset =>
          right
          simp only [fdIn, hu.steady.state, recvRaw, hrec.batch, List.take_nil, List.drop_nil,
            ne_eq, not_true, false_and, if_false] at hr
          cases hr
          exact ⟨rfl, rfl, rfl, rfl, rfl, rfl, rfl⟩
      | bytes n =>
          left
          obtain ⟨v, wire'', e, hcall, hgot, hdata, -⟩ := fdIn_spec hu.steady hrec hready wire n
          rw [hcall] at hr
          cases hr
          refine ⟨hgot.steady, by rw [hdata, hrec.batch, List.nil_append], hgot.length,
            by rw [hgot.sameOut.out, List.nil_append], ?_⟩
          rcases hgot.outcome with ⟨rfl, hnot, -⟩ | ⟨rfl, hstill, -⟩
          · exact Or.inr (Or.inr ⟨rfl, hrec, hnot, hgot.sameOut.notSending, hgot.sameOut.sending⟩)
          · refine Or.inl ⟨rfl, hgot.sameOut.notSending, hgot.sameOut.sending, ?_, fun _ => hstill⟩
            intro hnot
            exact absurd hnot.inLen (Nat.ne_of_gt hrec.inLen)
  | fdOut io =>
      obtain ⟨r, hr, hret⟩ := bind_eq_ok_iff.mp h
      cases hret
      have hsend : u.Sending := hu.sends.resolve_left fun hnot => by
        have := hnot.pollOut.symm.trans hready
        exact absurd this (by simp)
      cases io with
      | reset =>
          right
          simp only [fdOut, hu.steady.state] at hr
          cases hr
          exact ⟨rfl, rfl, rfl, down_fdError u⟩
      | bytes n =>
          left
          obtain ⟨v, w, e, hcall, hsent, hdata, -⟩ := fdOut_spec hu.steady hsend hready n
          rw [hcall] at hr
          cases hr
          refine ⟨hsent.steady, by rw [hsent.sameIn.inBuf, hsent.sameIn.batch],
            by rw [hsent.sameIn.inBuf, hsent.sameIn.inLen], hdata, ?_⟩
          rcases hsent.outcome with ⟨rfl, hnot, -⟩ | ⟨rfl, hstill, -⟩
          · exact Or.inr (Or.inl ⟨rfl, hsend, hnot, hsent.sameIn.notReceiving,
              hsent.sameIn.receiving⟩)
          · refine Or.inl ⟨rfl, ?_, fun _ => hstill, hsent.sameIn.notReceiving,
              hsent.sameIn.receiving⟩
            intro hnot
            exact absurd hnot.out hsend.out
  | fdErr =>
      right
      simp only [work, fdErr, hu.steady.state, ok_bind, pure_eq_ok] at h
      cases h
      exact ⟨rfl, rfl, rfl, down_fdError u⟩

/-- A usock that was up and has moved bytes is up. -/
theorem Moved.up {u' : Usock} {wire' written : List UInt8} {e : Option UsockEvent}
    (hm : Moved u wire u' wire' written e) (hu : u.Up) : u'.Up := by
  refine ⟨hm.steady, ?_, ?_⟩
  · rcases hm.outcome with ⟨-, hno, hyes, -⟩ | ⟨-, -, hno, -⟩ | ⟨-, -, -, hno, hyes⟩
    · exact hu.sends.imp hno hyes
    · exact Or.inl hno
    · exact hu.sends.imp hno hyes
  · rcases hm.outcome with ⟨-, -, -, hno, hyes⟩ | ⟨-, -, -, hno, hyes⟩ | ⟨-, -, hno, -⟩
    · exact hu.receives.imp hno hyes
    · exact hu.receives.imp hno hyes
    · exact Or.inl hno

/-- A usock at which nothing is open reports nothing but a break. -/
theorem Moved.idle {u' : Usock} {wire' written : List UInt8} {e : Option UsockEvent}
    (hm : Moved u wire u' wire' written e) (hsend : u.NotSending) (hrecv : u.NotReceiving) :
    e = none ∧ u'.NotSending ∧ u'.NotReceiving ∧ u'.inBuf = u.inBuf := by
  rcases hm.outcome with ⟨he, hno, -, hno', -⟩ | ⟨-, hsending, -⟩ | ⟨-, hreceiving, -⟩
  · refine ⟨he, hno hsend, hno' hrecv, ?_⟩
    have hlength := hm.length
    rw [(hno' hrecv).inLen, hrecv.inLen] at hlength
    exact (List.append_inj hm.read hlength).1
  · exact absurd hsend.out hsending.out
  · exact absurd hrecv.inLen (Nat.ne_of_gt hreceiving.inLen)

/-- What a usock reports while its owner asks nothing of it. -/
theorem work_report {w : Work} {u' : Usock} {wire' written : List UInt8}
    {e : Option UsockEvent} (hu : u.Up ∨ u.Broken) (hready : u.Ready w)
    (h : u.work wire w = .ok (u', wire', written, e)) :
    (u'.Up ∨ u'.Broken) ∧
      (e = none ∨ e = some .sent ∨ e = some .received ∨ e = some .error) := by
  rcases hu with hu | hu
  · rcases work_up hu hready h with hm | ⟨-, -, he, hdown⟩
    · refine ⟨Or.inl (hm.up hu), ?_⟩
      rcases hm.outcome with ⟨he, -⟩ | ⟨he, -⟩ | ⟨he, -⟩
      · exact Or.inl he
      · exact Or.inr (Or.inl he)
      · exact Or.inr (Or.inr (Or.inl he))
    · exact ⟨Or.inr (Or.inr hdown), Or.inr (Or.inr (Or.inr he))⟩
  · rcases work_broken hu hready h with ⟨-, -, ⟨he, hbroken⟩ | ⟨he, -, hdown⟩⟩
    · exact ⟨Or.inr hbroken, Or.inl he⟩
    · exact ⟨Or.inr (Or.inr hdown), Or.inr (Or.inr (Or.inr he))⟩

/-! ## Calls of the owner -/

/-- A receive takes the next bytes or finds the connection broken. -/
theorem recv_or_broken (hu : u.Steady) (hnot : u.NotReceiving) (wire : List UInt8) {len : Nat}
    (hlen : 0 < len) (io : Io) :
    ∃ u' wire' e, u.recv wire len io = .ok (u', wire', e) ∧
      (Received u u' len e ∧ u'.inBuf ++ (u'.batch ++ wire') = u.batch ++ wire ∨
        e = some .shutdown ∧ u'.state = .removingFd) := by
  cases io with
  | bytes n =>
      obtain ⟨u', wire', e, hcall, hgot, hdata⟩ := recv_spec hu hnot wire hlen n
      exact ⟨u', wire', e, hcall, Or.inl ⟨hgot, hdata⟩⟩
  | reset =>
      have hstop : UsockTask.stop ∉ u.tasks := fun ht => by
        rcases hu.tasks _ ht with h | h <;> exact absurd h (by simp)
      unfold recv
      rw [gridAssert_pos hu.state, ok_bind]
      by_cases hall : u.batch ≠ [] ∧ len - (u.batch.take len).length = 0
      · -- the batch buffer has all of it
        have hfull : (u.batch.take len).length = len := by
          have := List.length_take_le len u.batch
          omega
        simp only [recvRaw]
        rw [if_pos hall]
        simp only [hfull, if_true]
        refine ⟨_, _, _, rfl, Or.inl ⟨⟨⟨hu.state, hu.fd, hu.nodup, hu.tasks⟩,
          sameOut_intro rfl rfl Iff.rfl, ?_,
          Or.inl ⟨rfl, ⟨hnot.task, hnot.pollIn, hnot.inLen⟩, rfl⟩⟩, ?_⟩⟩
        · simp only [hnot.inLen]
          exact hfull
        · simp only [← List.append_assoc, List.take_append_drop]
      · simp only [recvRaw]
        rw [if_neg hall]
        simp only [actionError, execute, gridAssert_pos hstop, ok_bind, pure_eq_ok]
        exact ⟨_, _, _, rfl, Or.inr ⟨rfl, rfl⟩⟩

/-- A send writes a part of its pieces or finds the connection broken. -/
theorem send_or_broken (hu : u.Steady) (hnot : u.NotSending) {iov : List (List UInt8)}
    (hiov : iov.length ≤ usockMaxIovcnt) (io : Io) :
    ∃ u' w e, u.send iov io = .ok (u', w, e) ∧
      (Sent u u' e ∧ w ++ u'.out.flatten = iov.flatten ∨
        e = some .shutdown ∧ u'.state = .removingFd ∧ w = []) := by
  cases io with
  | bytes n =>
      obtain ⟨u', w, e, hcall, hsent, hdata⟩ := send_spec hu hnot hiov n
      exact ⟨u', w, e, hcall, Or.inl ⟨hsent, hdata⟩⟩
  | reset =>
      have hstop : UsockTask.stop ∉ u.tasks := fun ht => by
        rcases hu.tasks _ ht with h | h <;> exact absurd h (by simp)
      unfold send
      simp only [gridAssert_pos hu.state, gridAssert_pos hiov, actionError, execute,
        gridAssert_pos hstop, ok_bind, pure_eq_ok]
      exact ⟨_, _, _, rfl, Or.inr ⟨rfl, rfl, rfl⟩⟩

end GridMq.Aio.Usock
