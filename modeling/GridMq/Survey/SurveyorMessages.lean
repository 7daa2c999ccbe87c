import GridMq.Survey.SurveyorRuns

set_option autoImplicit false

/-!
# The messages that a SURVEYOR socket receives

A message that was taken from a pipe is to be handed over or released.  The receive
releases a message that is too short, but skips a response to an earlier survey without
releasing it: the next message is read over it, or the call returns with it.
-/

namespace GridMq.Survey

open GridMq.Core GridMq.Protocols GridMq.Aio GridMq.ReqRep GridMq.Library

namespace Xsurveyor

/-- The message that the fair queue gives next. -/
def nextResponse (self : Xsurveyor) : Option (List UInt8) :=
  match self.inpipes.getpipe with
  | .ok (some d) => (self.pipes d.pipe).bind fun pipe => pipe.session.inbox.head?
  | _ => none

variable {x x' : Xsurveyor} {wire : List UInt8}

theorem sessionVfptr_recv_head {pipe pipe' : Pipe (Session (List UInt8))}
    (h : sessionVfptr.recv pipe = .ok (pipe', wire)) : pipe.session.inbox.head? = some wire := by
  unfold sessionVfptr at h
  simp only at h
  split at h
  · exact absurd h (by simp)
  · rename_i a rest hinbox
    rw [hinbox]
    split at h
    · obtain ⟨r, -, h⟩ := bind_eq_ok_iff.mp h
      obtain ⟨-, rfl⟩ := Prod.mk.inj (Except.ok.inj h)
      rfl
    · obtain ⟨-, rfl⟩ := Prod.mk.inj (Except.ok.inj h)
      rfl

theorem fqRecv_nextResponse (h : x.fqRecv = .ok (x', some wire)) :
    x.nextResponse = some wire := by
  obtain ⟨d, hget, h⟩ := bind_eq_ok_iff.mp h
  cases d with
  | none => exact absurd (Prod.mk.inj (Except.ok.inj h)).2 (by simp)
  | some d =>
      obtain ⟨pipe, hpipe, h⟩ := bind_eq_ok_iff.mp h
      obtain ⟨⟨pipe', wire', release⟩, hrecv, h⟩ := bind_eq_ok_iff.mp h
      obtain ⟨inpipes, -, h⟩ := bind_eq_ok_iff.mp h
      obtain ⟨-, hwire⟩ := Prod.mk.inj (Except.ok.inj h)
      obtain rfl := Option.some.inj hwire
      obtain ⟨-, p, hvfptr, -⟩ := Pipe.recv_cases hrecv
      have hhead := sessionVfptr_recv_head hvfptr
      simp only [nextResponse, hget, getPipe_eq_ok hpipe, Option.bind_some]
      exact hhead

theorem fqRecv_none (h : x.fqRecv = .ok (x', none)) : x.nextResponse = none := by
  obtain ⟨d, hget, h⟩ := bind_eq_ok_iff.mp h
  cases d with
  | none => simp only [nextResponse, hget]
  | some d =>
      obtain ⟨pipe, -, h⟩ := bind_eq_ok_iff.mp h
      obtain ⟨r, -, h⟩ := bind_eq_ok_iff.mp h
      obtain ⟨inpipes, -, h⟩ := bind_eq_ok_iff.mp h
      exact absurd (Prod.mk.inj (Except.ok.inj h)).2 (by simp)

end Xsurveyor

namespace Surveyor

/-- What was taken from the pipes was handed over or released, each message once. -/
def Settled (s : Surveyor) : Prop := s.taken.Perm (s.handed ++ s.released)

/-- A receive finds a response to the current survey first, a message that is too short, or
none. -/
def Fresh (s : Surveyor) (l : Label) : Prop :=
  ∀ slot, l = .recv slot → s.inprogress = true → ∀ wire msg,
    s.xsurveyor.nextResponse = some wire → xreqSplit wire = some msg →
    getl msg.sphdr = s.surveyid

variable {s s' : Surveyor} {slot slot' : Slot (List UInt8)} {r : SurveyorResult}

theorem Settled.length (h : Settled s) :
    s.taken.length = s.handed.length + s.released.length := by
  rw [List.Perm.length_eq h, List.length_append]

/-- A turn of the loop that is taken starts with the fair queue. -/
theorem recvLoop_fqRecv {n : Nat} (h : recvLoop (n + 1) s slot = .ok (s', slot', r)) :
    ∃ x' wire, s.xsurveyor.fqRecv = .ok (x', wire) := by
  obtain ⟨_, hrecv, -⟩ := bind_eq_ok_iff.mp h
  obtain ⟨⟨x', wire⟩, hcall, -⟩ := bind_eq_ok_iff.mp hrecv
  exact ⟨x', wire, hcall⟩

/-- The loop never makes up for a message that was lost. -/
theorem recvLoop_deficit (n : Nat) :
    ∀ {s : Surveyor} {slot : Slot (List UInt8)}, recvLoop n s slot = .ok (s', slot', r) →
      s'.handed.length + s'.released.length + s.taken.length ≤
        s'.taken.length + (s.handed.length + s.released.length) := by
  induction n with
  | zero =>
      intro s slot h
      exact absurd h (by simp [recvLoop])
  | succ n ih =>
      intro s slot h
      obtain ⟨x', wire, hcall⟩ := recvLoop_fqRecv h
      cases wire with
      | none =>
          rw [recvLoop_none hcall] at h
          obtain ⟨rfl, -⟩ := Prod.mk.inj (Except.ok.inj h)
          simp only
          omega
      | some wire =>
          cases hsplit : xreqSplit wire with
          | none =>
              rw [recvLoop_malformed hcall hsplit] at h
              obtain ⟨rfl, -⟩ := Prod.mk.inj (Except.ok.inj h)
              simp only [List.length_append, List.length_singleton]
              omega
          | some msg =>
              by_cases hid : getl msg.sphdr = s.surveyid
              · rw [recvLoop_current hcall hsplit hid] at h
                obtain ⟨rfl, -⟩ := Prod.mk.inj (Except.ok.inj h)
                simp only [List.length_append, List.length_singleton]
                omega
              · rw [recvLoop_other hcall hsplit hid] at h
                have hrest := ih h
                simp only [List.length_append, List.length_singleton] at hrest
                omega

/-- One message is taken, and it goes somewhere. -/
theorem Settled.take (h : Settled s) {wire : List UInt8} {handed released : List (List UInt8)}
    (hone : handed = s.handed ++ [wire] ∧ released = s.released ∨
      handed = s.handed ∧ released = s.released ++ [wire]) :
    (s.taken ++ [wire]).Perm (handed ++ released) := by
  have hmore : (s.taken ++ [wire]).Perm (s.handed ++ s.released ++ [wire]) :=
    h.append_right [wire]
  rcases hone with ⟨rfl, rfl⟩ | ⟨rfl, rfl⟩
  · refine hmore.trans ?_
    rw [List.append_assoc, List.append_assoc]
    exact (List.perm_append_comm).append_left s.handed
  · rw [← List.append_assoc]
    exact hmore

/-- A receive while a survey is in progress: everything is settled afterwards if and only if
it does not start with a response to another survey. -/
theorem recvLoop_settled (h : Settled s) {n : Nat}
    (hcall : recvLoop (n + 1) s slot = .ok (s', slot', r)) :
    (Settled s' ↔ ∀ wire msg, s.xsurveyor.nextResponse = some wire → xreqSplit wire = some msg →
      getl msg.sphdr = s.surveyid) ∧
    (Settled s' → slot'.isLive = true → slot.isLive = true ∨ ∃ wire msg, r = .response wire msg) := by
  obtain ⟨x', wire, hrecv⟩ := recvLoop_fqRecv hcall
  cases wire with
  | none =>
      rw [recvLoop_none hrecv] at hcall
      obtain ⟨rfl, hslot⟩ := Prod.mk.inj (Except.ok.inj hcall)
      obtain ⟨rfl, -⟩ := Prod.mk.inj hslot
      refine ⟨⟨?_, fun _ => h⟩, fun _ hlive => Or.inl hlive⟩
      intro _ wire msg hnext
      rw [Xsurveyor.fqRecv_none hrecv] at hnext
      exact absurd hnext (by simp)
  | some wire =>
      have hnext := Xsurveyor.fqRecv_nextResponse hrecv
      cases hsplit : xreqSplit wire with
      | none =>
          rw [recvLoop_malformed hrecv hsplit] at hcall
          obtain ⟨rfl, hslot⟩ := Prod.mk.inj (Except.ok.inj hcall)
          obtain ⟨rfl, -⟩ := Prod.mk.inj hslot
          refine ⟨⟨?_, fun _ => h.take (Or.inr ⟨rfl, rfl⟩)⟩,
            fun _ hlive => absurd hlive (by simp [Slot.isLive])⟩
          intro _ wire' msg hnext' hsplit'
          obtain rfl := Option.some.inj (hnext.symm.trans hnext')
          exact absurd (hsplit.symm.trans hsplit') (by simp)
      | some msg =>
          by_cases hid : getl msg.sphdr = s.surveyid
          · rw [recvLoop_current hrecv hsplit hid] at hcall
            obtain ⟨rfl, hslot⟩ := Prod.mk.inj (Except.ok.inj hcall)
            obtain ⟨rfl, rfl⟩ := Prod.mk.inj hslot
            refine ⟨⟨?_, fun _ => h.take (Or.inl ⟨rfl, rfl⟩)⟩, fun _ _ => Or.inr ⟨_, _, rfl⟩⟩
            intro _ wire' msg' hnext' hsplit'
            obtain rfl := Option.some.inj (hnext.symm.trans hnext')
            obtain rfl := Option.some.inj (hsplit.symm.trans hsplit')
            exact hid
          · rw [recvLoop_other hrecv hsplit hid] at hcall
            have hdeficit := recvLoop_deficit n hcall
            have hlost : ¬Settled s' := by
              intro hsettled
              have hbefore := h.length
              have hafter := hsettled.length
              simp only [List.length_append, List.length_singleton] at hdeficit
              omega
            refine ⟨iff_of_false hlost ?_, fun hsettled => absurd hsettled hlost⟩
            intro hall
            exact hid (hall wire msg hnext hsplit)

/-- A receive that is taken leaves everything settled if and only if it is fresh, and then
the slot of the caller holds a message only if it was handed over. -/
theorem recv_settled (h : Settled s) (hcall : s.recv slot = .ok (s', slot', r)) :
    (Settled s' ↔ s.Fresh (.recv slot)) ∧
    (Settled s' → slot'.isLive = true → slot.isLive = true ∨ ∃ wire msg, r = .response wire msg) := by
  cases hbusy : s.inprogress with
  | true =>
      rw [recv, if_neg (by simp [hbusy])] at hcall
      obtain ⟨hiff, hslot⟩ := recvLoop_settled h hcall
      refine ⟨hiff.trans ⟨?_, ?_⟩, hslot⟩
      · intro hall slot'' _ _ wire msg hnext hsplit
        exact hall wire msg hnext hsplit
      · intro hfresh wire msg hnext hsplit
        exact hfresh slot rfl hbusy wire msg hnext hsplit
  | false =>
      have hfresh : s.Fresh (.recv slot) := by
        intro slot'' _ hyes
        exact absurd (hbusy.symm.trans hyes) (by simp)
      rw [recv, if_pos (by simp [hbusy])] at hcall
      split at hcall
      · obtain ⟨rfl, hrest⟩ := Prod.mk.inj (Except.ok.inj hcall)
        obtain ⟨rfl, -⟩ := Prod.mk.inj hrest
        exact ⟨iff_of_true h hfresh, fun _ hlive => Or.inl hlive⟩
      · obtain ⟨rfl, hrest⟩ := Prod.mk.inj (Except.ok.inj hcall)
        obtain ⟨rfl, -⟩ := Prod.mk.inj hrest
        exact ⟨iff_of_true h hfresh, fun _ hlive => Or.inl hlive⟩

theorem settled_step {l : Label} (hinv : Inv s) (h : Settled s) (hfresh : s.Fresh l)
    (hstep : system.step s l s') : Settled s' := by
  obtain ⟨-, -, -, hlog⟩ := hinv.step hstep
  by_cases hl : ∃ slot, l = .recv slot
  · obtain ⟨slot, rfl⟩ := hl
    obtain ⟨-, r, hnext⟩ := hstep
    obtain ⟨⟨s₁, slot', r'⟩, hcall, hnext⟩ := bind_eq_ok_iff.mp hnext
    obtain ⟨rfl, -⟩ := Prod.mk.inj (Except.ok.inj hnext)
    exact (recv_settled h hcall).1.mpr hfresh
  · obtain ⟨htaken, hhanded, hreleased⟩ := hlog (fun slot hs => hl ⟨slot, hs⟩)
    unfold Settled
    rw [htaken, hhanded, hreleased]
    exact h

/-- In every run whose receives are fresh, every message that was taken from a pipe was
handed over or released, once.  The next receive keeps that if and only if it is fresh, and
then the slot of its caller holds a message only if it was handed over. -/
theorem responses_settled {s : Surveyor} (h : (system.restrict Fresh).Reachable s) :
    Settled s ∧ ∀ slot s' slot' r, s.recv slot = .ok (s', slot', r) →
      (Settled s' ↔ s.Fresh (.recv slot)) ∧
      (s.Fresh (.recv slot) → slot'.isLive = true →
        slot.isLive = true ∨ ∃ wire msg, r = .response wire msg) := by
  have hsettled : Settled s := by
    refine h.invariant ?_ ?_
    · rintro s ⟨surveyid, hs⟩
      obtain rfl := Except.ok.inj hs
      exact List.Perm.refl _
    · rintro s l s' hreach hs ⟨hfresh, hstep⟩
      exact settled_step (inv_reachable hreach.of_restrict) hs hfresh hstep
  refine ⟨hsettled, ?_⟩
  intro slot s' slot' r hcall
  obtain ⟨hiff, hslot⟩ := recv_settled hsettled hcall
  exact ⟨hiff, fun hfresh => hslot (hiff.mpr hfresh)⟩

/-- A second survey is sent, its timer runs, and then the response to the first one
arrives. -/
def resurveyed : List Label :=
  [.notify (.start 1 defaultPriority defaultPriority), .deliver, .deliver, .send { body := [97] },
    .send { body := [98] }, .notify (.received 1 (putl (2 ^ 31 + 1) ++ [99])), .deliver, .deliver]

theorem not_responses_settled : ¬∀ s, system.Reachable s → Settled s := by
  intro hall
  have hrun : (after (resurveyed ++ [.recv .blank])).any (fun p =>
      p.1.taken.length = 1 ∧ p.1.handed.length = 0 ∧ p.1.released.length = 0) = true := by
    decide +kernel
  obtain ⟨⟨s, o⟩, hs, hp⟩ := (Option.any_eq_true _ _).mp hrun
  obtain ⟨htaken, hhanded, hreleased⟩ := of_decide_eq_true hp
  have hlength := (hall s (Agrees.run (after_reachable hs)).1).length
  simp only at htaken hhanded hreleased
  omega

/-- A step other than a receive. -/
def sideTry (s : Surveyor) (l : Label) : Option Surveyor :=
  match l with
  | .recv _ => none
  | l => System.tryStep (s.Enabled l) ((s.next l).map Prod.fst)

theorem sideTry_step (s : Surveyor) (l : Label) (s' : Surveyor) (h : sideTry s l = some s') :
    (system.restrict Fresh).step s l s' := by
  have hside : ∀ slot, l ≠ .recv slot := by
    rintro slot rfl
    exact absurd h (by simp [sideTry])
  have htry : System.tryStep (s.Enabled l) ((s.next l).map Prod.fst) = some s' := by
    cases l with
    | recv slot => exact absurd rfl (hside slot)
    | notify e => exact h
    | deliver => exact h
    | send msg => exact h
    | setDeadline deadline => exact h
    | workerTask => exact h
    | workerTimeout => exact h
  obtain ⟨hen, hnext⟩ := System.tryStep_eq_some htry
  refine ⟨fun slot hs => absurd hs (hside slot), hen, ?_⟩
  cases hcall : s.next l with
  | error e => simp [hcall, Except.map] at hnext
  | ok r =>
      rw [hcall] at hnext
      obtain rfl := Except.ok.inj hnext
      exact ⟨r.2, rfl⟩

/-- The response to the only survey is handed over. -/
theorem responses_settled_answered : ∃ s s' slot' r, (system.restrict Fresh).Reachable s ∧
    s.recv .blank = .ok (s', slot', r) ∧ s'.handed = [putl (2 ^ 31 + 1) ++ [98]] ∧
    Settled s' := by
  have hrun : (System.follow sideTry (created 0) answered).any (fun s =>
      s.xsurveyor.nextResponse = some (putl (2 ^ 31 + 1) ++ [98]) ∧ s.surveyid = 2 ^ 31 + 1 ∧
        ((s.recv .blank).toOption.any fun r =>
          r.1.handed = [putl (2 ^ 31 + 1) ++ [98]]) = true) = true := by decide +kernel
  obtain ⟨s, hs, hp⟩ := (Option.any_eq_true _ _).mp hrun
  obtain ⟨hfirst, hid, hrecv⟩ := of_decide_eq_true hp
  have hinit : (system.restrict Fresh).init (created 0) := ⟨0, rfl⟩
  have hreach := (System.Reachable.start hinit).follow sideTry_step hs
  have hfresh : s.Fresh (.recv .blank) := by
    intro slot _ _ wire msg hnext hsplit
    obtain rfl := Option.some.inj (hfirst.symm.trans hnext)
    rw [xreqSplit_append (length_putl _)] at hsplit
    obtain rfl := Option.some.inj hsplit
    rw [hid]
    decide
  cases hcall : s.recv .blank with
  | error e => simp [hcall, Except.toOption] at hrecv
  | ok r =>
      obtain ⟨s', slot', r⟩ := r
      have hhanded : s'.handed = [putl (2 ^ 31 + 1) ++ [98]] := by
        rw [hcall] at hrecv
        exact of_decide_eq_true hrecv
      exact ⟨s, s', slot', r, hreach, hcall, hhanded,
        ((responses_settled hreach).2 .blank s' slot' r hcall).1.mpr hfresh⟩

end Surveyor

end GridMq.Survey
