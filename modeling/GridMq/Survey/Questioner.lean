import GridMq.ReqRep.Asker
import GridMq.Survey.SurveyorBoxes

set_option autoImplicit false

/-!
# The SURVEYOR socket as it is seen from outside

What was given to the pipes of a SURVEYOR socket is one of the surveys of its user, and a response
that is handed over came in on one of the pipes under the number of the last survey.
-/

namespace GridMq.Survey

open GridMq.Core GridMq.Protocols GridMq.Aio GridMq.Library GridMq.ReqRep

namespace Surveyor

variable {s s' : Surveyor}

/-- What was given to a pipe so far. -/
def outbox (s : Surveyor) (p : Nat) : List (List UInt8) :=
  match s.xsurveyor.pipes p with
  | none => []
  | some pipe => pipe.session.outbox

/-- The body of the survey that a step sends. -/
def surveys : Label → Option (List UInt8)
  | .send msg => some msg.body
  | _ => none

/-- The name of the pipe that a step reports as new. -/
def newName : Label → Option Nat
  | .notify (.start p _ _) => some p
  | _ => none

/-- What a step answers, and what it gave to the pipes. -/
abbrev Answer := SurveyorResult × List (Nat × List UInt8)

/-- A step as it is seen from outside. -/
abbrev Seen := Label × Answer

instance : DecidableEq Seen := inferInstanceAs (DecidableEq (Label × Answer))

/-! ## The number of the survey -/

/-- The number that a socket has after some surveys. -/
def number (lastid : Nat) : Nat → Nat
  | 0 => lastid % 2 ^ 32
  | k + 1 => setTopBit ((lastid + k + 1) % 2 ^ 32)

theorem number_mod (lastid k : Nat) : number lastid k % 2 ^ 31 = (lastid + k) % 2 ^ 31 := by
  cases k with
  | zero =>
      rw [number]
      omega
  | succ k =>
      rw [number, Asker.setTopBit_mod]
      omega

/-- Two numbers with the top bit set are the same if the other bits are. -/
theorem setTopBit_congr {m n : Nat} (h : m % 2 ^ 31 = n % 2 ^ 31) :
    setTopBit (m % 2 ^ 32) = setTopBit (n % 2 ^ 32) := by
  have hid : ∀ i, IsId (setTopBit (i % 2 ^ 32)) := by
    intro i
    have hlt : setTopBit (i % 2 ^ 32) < 2 ^ 32 := setTopBit_lt (Nat.mod_lt _ (by decide))
    exact ⟨(topBit_iff hlt).mp (topBit_setTopBit _), hlt⟩
  have hlow : ∀ i, setTopBit (i % 2 ^ 32) % 2 ^ 31 = i % 2 ^ 31 := by
    intro i
    rw [Asker.setTopBit_mod]
    omega
  obtain ⟨hm, hm'⟩ := hid m
  obtain ⟨hn, hn'⟩ := hid n
  have hm'' := hlow m
  have hn'' := hlow n
  omega

/-- A new survey has the next number. -/
theorem nextId_number (lastid k : Nat) : nextId (number lastid k) = number lastid (k + 1) := by
  have hmod := number_mod lastid k
  rw [nextId, number]
  apply setTopBit_congr
  omega

/-- Surveys are numbered one after the other, and one is in progress only if one was sent. -/
theorem Effect.surveyid {l : Label} {r : SurveyorResult} (h : Effect s l r s') {lastid k : Nat}
    (hid : s.surveyid = number lastid k) (hpos : s.inprogress = true → 0 < k) :
    s'.surveyid = number lastid (k + (surveys l).toList.length) ∧
      (s'.inprogress = true → 0 < k + (surveys l).toList.length) := by
  have hsame : s'.surveyid = s.surveyid → (s'.inprogress = true → s.inprogress = true) →
      surveys l = none → s'.surveyid = number lastid (k + (surveys l).toList.length) ∧
        (s'.inprogress = true → 0 < k + (surveys l).toList.length) := by
    intro hsurveyid hprog hl
    rw [hl]
    exact ⟨hsurveyid.trans hid, fun hp => hpos (hprog hp)⟩
  cases h with
  | keep hkeep hl =>
      refine hsame hkeep.surveyid (fun hp => inprogress_congr hkeep.state ▸ hp) ?_
      cases l with
      | send msg => exact absurd rfl (hl.1 msg)
      | _ => rfl
  | sent msg hl hr hsurveyid htosend hstate htimedout =>
      subst hl
      refine ⟨?_, fun _ => Nat.succ_pos k⟩
      rw [hsurveyid, hid, nextId_number]
      rfl
  | elapsed e rest hl hev helapsed hsurveyid =>
      subst hl
      refine hsame hsurveyid ?_ rfl
      intro _
      cases helapsed with
      | expired _ hfrom => simp [inprogress, hfrom]
      | resent _ hfrom => simp [inprogress, hfrom]
      | ended _ hfrom => simp [inprogress, hfrom]
  | refused slot hl hidle hr hstate hsurveyid htimedout =>
      subst hl
      exact hsame hsurveyid (fun hp => inprogress_congr hstate ▸ hp) rfl
  | received slot hl hbusy hkeep hr =>
      subst hl
      exact hsame hkeep.surveyid (fun _ => hbusy) rfl

end Surveyor

/-- A SURVEYOR socket, with the names that were used for its pipes. -/
structure Questioner where
  surveyor : Surveyor
  used : List Nat := []

namespace Questioner

open Surveyor

/-- What can happen to the socket: no name is given to two pipes. -/
def Enabled (mine : Nat → Bool) (s : Questioner) (l : Label) : Prop :=
  s.surveyor.Enabled l ∧ ∀ p, newName l = some p → mine p = true ∧ p ∉ s.used

/-- A SURVEYOR socket from its creation on.  `mine` says which pipes it may be given. -/
def machine (lastid : Nat) (mine : Nat → Bool) : Machine Questioner Label Answer Abort where
  init := { surveyor := created lastid }
  Enabled := Enabled mine
  next s l := do
    let r ← s.surveyor.next l
    let used := (newName l).toList ++ s.used
    return ({ surveyor := r.1, used := used }, r.2,
      newlyGiven used s.surveyor.outbox r.1.outbox)

/-- A check for `Enabled`. -/
def ready (mine : Nat → Bool) (s : Questioner) (l : Label) : Bool :=
  decide (s.surveyor.Enabled l) && (newName l).all fun p => mine p && !s.used.contains p

theorem enabled_of_ready {mine : Nat → Bool} {s : Questioner} {l : Label}
    (h : s.ready mine l = true) : s.Enabled mine l := by
  obtain ⟨hen, hname⟩ := Bool.and_eq_true_iff.mp h
  refine ⟨of_decide_eq_true hen, ?_⟩
  intro p hp
  rw [hp] at hname
  simpa using hname

/-- What arrives in a step. -/
def arrival : Seen → Option (Nat × List UInt8)
  | (.notify (.received p wire), _) => some (p, wire)
  | _ => none

/-- What is sent in a step. -/
def sends (l : Seen) : List (Nat × List UInt8) := l.2.2

/-- The body of the survey that the user sends in a step. -/
def request (l : Seen) : Option (List UInt8) := surveys l.1

variable {lastid : Nat} {mine : Nat → Bool} {labels : List Seen} {s : Questioner}

/-- The messages of a socket are where they come from. -/
structure Sourced (lastid : Nat) (labels : List Seen) (s : Questioner) : Prop where
  inv : s.surveyor.Inv
  surveyid : s.surveyor.surveyid = number lastid (labels.filterMap request).length
  sent : s.surveyor.inprogress = true → 0 < (labels.filterMap request).length
  boxed : s.surveyor.Boxed (fun p wire => (p, wire) ∈ labels.filterMap arrival)
    fun _ wire => IsRequest lastid (labels.filterMap request) wire
  given : ∀ e ∈ labels.flatMap sends, IsRequest lastid (labels.filterMap request) e.2

/-- SURVEYOR sockets from outside. -/
def asker : Asker Questioner Label Answer where
  machine := machine
  arrival := arrival
  sends := sends
  request := request

end Questioner

/-! ## The raw socket in a device -/

namespace Xsurveyor

/-- A raw SURVEYOR socket that a device passes surveys on with. -/
def outlet : Devices.Outlet Xsurveyor where
  init := {}
  next self
    | .add p sndprio rcvprio => self.add p sndprio.1 rcvprio.1
    | .rm p => self.rm p
    | .arrive p wire => do
        let r ← self.receivedMsg p wire
        return r.1
    | .sent p => do
        let r ← self.sentMsg p
        return r.1
    | .deliver p .pipeIn => self.xsurveyorIn p
    | .deliver p .pipeOut => self.xsurveyorOut p
  events := events
  send self msg := do
    let self ← self.send msg
    return (self, true)
  recv := recv
  outbox self p :=
    match self.pipes p with
    | none => []
    | some pipe => pipe.session.outbox
  Boxed := Boxed

theorem Boxed.recv {In Out : Nat → List UInt8 → Prop} {x : Xsurveyor}
    {r : Xsurveyor × Option Msg} (h : x.Boxed In Out) (hcall : x.recv = .ok r) :
    r.1.Boxed In Out ∧ ∀ msg, r.2 = some msg → msg.sphdr.length = 4 ∧ ∃ p, In p msg.wire := by
  obtain ⟨t, hrecv, hret⟩ := bind_eq_ok_iff.mp hcall
  obtain ⟨hx, hin⟩ := h.fqRecv hrecv
  split at hret
  · obtain rfl := Except.ok.inj hret
    exact ⟨hx, fun msg hmsg => absurd hmsg (by simp)⟩
  · rename_i wire hw
    obtain rfl := Except.ok.inj hret
    refine ⟨hx, ?_⟩
    intro msg hmsg
    obtain ⟨hwire, hlen⟩ := xreqSplit_eq_some hmsg
    refine ⟨hlen, ?_⟩
    rw [show msg.wire = wire from hwire.symm]
    exact hin wire hw

theorem Boxed.next {In Out : Nat → List UInt8 → Prop} {x x' : Xsurveyor} {op : PipeOp}
    (h : x.Boxed In Out) (hcall : outlet.next x op = .ok x')
    (hop : ∀ p wire, op.arrival = some (p, wire) → In p wire) : x'.Boxed In Out := by
  cases op with
  | add p sndprio rcvprio => exact h.add hcall
  | rm p => exact h.rm hcall
  | arrive p wire =>
      obtain ⟨r, hreceived, hret⟩ := bind_eq_ok_iff.mp hcall
      obtain rfl := Except.ok.inj hret
      exact h.receivedMsg (hop p wire rfl) hreceived
  | sent p =>
      obtain ⟨r, hsent, hret⟩ := bind_eq_ok_iff.mp hcall
      obtain rfl := Except.ok.inj hret
      exact h.sentMsg hsent
  | deliver p e =>
      cases e with
      | pipeIn => exact h.xsurveyorIn hcall
      | pipeOut => exact h.xsurveyorOut hcall

end Xsurveyor

end GridMq.Survey
