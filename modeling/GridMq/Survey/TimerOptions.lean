import GridMq.ReqRep.ReqRuns
import GridMq.Survey.SurveyorRuns

set_option autoImplicit false

/-!
# The options behind the timers (`grid_req_setopt`, `grid_surveyor_setopt`)

A REQ and a SURVEYOR socket have one option each, a C `int` that is stored as it comes and
is the timeout of a timer that a later send starts.  `grid_timer_start` asserts that its
timeout is not negative, but neither setter looks at the sign: a run aborts if and only if
one of the values that were stored is negative.
-/

namespace GridMq.Survey

open GridMq.Core GridMq.Protocols GridMq.Aio GridMq.ReqRep GridMq.Library

/-! ## Setting an option -/

/-- The errors of `setopt`. -/
inductive OptErrno where
  | enoprotoopt | einval
  deriving DecidableEq, Repr

/-- The C `int` in four bytes. -/
def cInt (optval : List UInt8) : Int := (BitVec.ofNat 32 (native optval)).toInt

/-- `setopt` of a socket type whose only option is an `int`. -/
def setoptInt {σ : Type} (protocol name : Int) (store : Int → σ) (level option : Int)
    (optval : List UInt8) : Except OptErrno σ :=
  if level ≠ protocol then .error .enoprotoopt
  else if option = name then
    if optval.length ≠ 4 then .error .einval
    else .ok (store (cInt optval))
  else .error .enoprotoopt

/-- `GRID_REQ` and `GRID_REQ_RESEND_IVL`. -/
def gridReq : Int := 3 * 16 + 0

def gridReqResendIvl : Int := 1

/-- `GRID_SURVEYOR` and `GRID_SURVEYOR_DEADLINE`. -/
def gridSurveyor : Int := 6 * 16 + 2

def gridSurveyorDeadline : Int := 1

/-- `grid_req_setopt`. -/
def reqSetopt (self : Req) (level option : Int) (optval : List UInt8) : Except OptErrno Req :=
  setoptInt gridReq gridReqResendIvl (fun val => { self with resendIvl := val }) level option optval

/-- `grid_surveyor_setopt`. -/
def surveyorSetopt (self : Surveyor) (level option : Int) (optval : List UInt8) :
    Except OptErrno Surveyor :=
  setoptInt gridSurveyor gridSurveyorDeadline (fun val => { self with deadline := val })
    level option optval

section

variable {σ : Type} {protocol name : Int} {store : Int → σ}

/-- What is stored is the value of four bytes, whatever its sign. -/
theorem setoptInt_eq_ok {level option : Int} {optval : List UInt8} {s : σ}
    (h : setoptInt protocol name store level option optval = .ok s) :
    s = store (cInt optval) ∧ optval.length = 4 := by
  unfold setoptInt at h
  split at h
  · exact absurd h (by simp)
  · split at h
    · split at h
      · exact absurd h (by simp)
      · rename_i hlen
        exact ⟨(Except.ok.inj h).symm, not_not.mp hlen⟩
    · exact absurd h (by simp)

theorem setoptInt_of_length {optval : List UInt8} (h : optval.length = 4) :
    setoptInt protocol name store protocol name optval = .ok (store (cInt optval)) := by
  simp [setoptInt, h]

end

/-! ## Runs in which options are set -/

/-- A step of the socket, or a call of `grid_setsockopt` at the level of its protocol. -/
inductive OptLabel (ι : Type) where
  | own (l : ι)
  | setopt (level option : Int) (optval : List UInt8)

/-- A socket with its setter.  Other steps do not touch the option, and a call that is
refused changes nothing. -/
def withOptions {σ ι : Type} (S : System σ ι) (other : ι → Prop) (open_ : σ → Prop)
    (setopt : σ → Int → Int → List UInt8 → Except OptErrno σ) : System σ (OptLabel ι) where
  init := S.init
  step s l s' :=
    match l with
    | .own l => other l ∧ S.step s l s'
    | .setopt level option optval => open_ s ∧
        match setopt s level option optval with
        | .ok s₁ => s' = s₁
        | .error _ => s' = s

/-- The values that `setopt` accepts lie in `P`. -/
def Accepts {σ ι : Type} (setopt : σ → Int → Int → List UInt8 → Except OptErrno σ)
    (P : Int → Prop) (s : σ) (l : OptLabel ι) : Prop :=
  ∀ level option optval s', l = .setopt level option optval →
    setopt s level option optval = .ok s' → P (cInt optval)

section

variable {σ ι : Type} {S : System σ ι} {other : ι → Prop} {open_ : σ → Prop}
  {setopt : σ → Int → Int → List UInt8 → Except OptErrno σ} {P : Int → Prop}

/-- A run without options is a run. -/
theorem reachable_own {G : σ → ι → Prop} (hG : ∀ s l, G s l → other l) {s : σ}
    (h : (S.restrict G).Reachable s) :
    ((withOptions S other open_ setopt).restrict (Accepts setopt P)).Reachable s := by
  refine h.invariant ?_ ?_
  · intro s hs
    exact .start hs
  · intro s l s' _ hreach hstep
    have hnone : Accepts setopt P s (.own l) := by
      intro level option optval s' heq
      exact absurd heq (by simp)
    exact hreach.step ⟨hnone, hG s l hstep.1, hstep.2⟩

/-- A run in which options are set, where each setting is a step of the socket. -/
theorem reachable_of_settings {G : σ → ι → Prop} (hG : ∀ s l, other l → G s l)
    (hset : ∀ s level option optval s', open_ s → setopt s level option optval = .ok s' →
      P (cInt optval) → ∃ l, (S.restrict G).step s l s') {s : σ}
    (h : ((withOptions S other open_ setopt).restrict (Accepts setopt P)).Reachable s) :
    (S.restrict G).Reachable s := by
  refine h.invariant ?_ ?_
  · intro s hs
    exact .start hs
  · rintro s l s' - hreach ⟨haccepts, hstep⟩
    cases l with
    | own l => exact hreach.step ⟨hG s l hstep.1, hstep.2⟩
    | setopt level option optval =>
        obtain ⟨hopen, hstep⟩ := hstep
        cases hcall : setopt s level option optval with
        | error e =>
            rw [hcall] at hstep
            obtain rfl := hstep
            exact hreach
        | ok s₁ =>
            rw [hcall] at hstep
            obtain rfl := hstep
            have hP := haccepts level option optval s' rfl hcall
            obtain ⟨l, hl⟩ := hset s level option optval s' hopen hcall hP
            exact hreach.step hl

/-- An accepted value in `P` is stored by a step. -/
theorem reachable_setopt {level option : Int} {optval : List UInt8} {s s' : σ}
    (h : ((withOptions S other open_ setopt).restrict (Accepts setopt P)).Reachable s)
    (hopen : open_ s) (hcall : setopt s level option optval = .ok s') (hP : P (cInt optval)) :
    ((withOptions S other open_ setopt).restrict (Accepts setopt P)).Reachable s' := by
  refine h.step (l := .setopt level option optval) ⟨?_, hopen, ?_⟩
  · intro level' option' optval' s'' heq _
    obtain ⟨-, -, rfl⟩ := OptLabel.setopt.inj heq
    exact hP
  · rw [hcall]

end

/-- All accepted values in `P` are non-negative. -/
def NonNegativeValues (P : Int → Prop) : Prop :=
  ∀ optval : List UInt8, optval.length = 4 → P (cInt optval) → 0 ≤ cInt optval

/-! ## `GRID_REQ_RESEND_IVL` -/

/-- A REQ socket whose user sets options. -/
def reqSystem : System Req (OptLabel Req.Label) :=
  withOptions Req.system (fun l => ∀ ivl, l ≠ .setResendIvl ivl)
    (fun s => s.sock = .active ∧ s.events = []) reqSetopt

/-- When only values in `P` are accepted for the resend interval, no assertion fails. -/
def ReqSafe (P : Int → Prop) : Prop :=
  ∀ s, (reqSystem.restrict (Accepts reqSetopt P)).Reachable s → ∀ l, Req.Enabled s l →
    s.next l ≠ .error .assertion

variable {P : Int → Prop}

theorem reqSafe_of_nonNegative (h : NonNegativeValues P) : ReqSafe P := by
  intro s hs l hl hfail
  have hreach : (Req.system.restrict Req.NonNegative).Reachable s := by
    refine reachable_of_settings ?_ ?_ hs
    · intro s l hother ivl heq
      exact absurd heq (hother ivl)
    · intro s level option optval s' hopen hcall hP
      obtain ⟨rfl, hlen⟩ := setoptInt_eq_ok hcall
      refine ⟨.setResendIvl (cInt optval), ?_, hopen, .ok, rfl⟩
      intro ivl heq
      obtain rfl := Req.Label.setResendIvl.inj heq
      exact h optval hlen hP
  have hivl := Req.resendIvl_nonneg hreach
  rcases Req.step_spec (Req.inv_reachable hreach.of_restrict) hl with ⟨s', r, hok, -⟩ | ⟨-, hneg⟩ |
    ⟨herr, -⟩
  · exact absurd (hfail.symm.trans hok) (by simp)
  · omega
  · exact absurd (hfail.symm.trans herr) (by simp)

/-- A pipe that can be written to is attached. -/
def attached : List Req.Label :=
  [.notify (.start 1 defaultPriority defaultPriority), .deliver, .deliver]

def NoOption (_ : Req) (l : Req.Label) : Prop := ∀ ivl, l ≠ .setResendIvl ivl

def setsOption : Req.Label → Bool
  | .setResendIvl _ => true
  | _ => false

theorem noOption_iff (s : Req) (l : Req.Label) : setsOption l = false ↔ NoOption s l := by
  cases l with
  | setResendIvl ivl => simp [setsOption, NoOption]
  | _ => simp [setsOption, NoOption]

instance (s : Req) (l : Req.Label) : Decidable (NoOption s l) :=
  decidable_of_iff (setsOption l = false) (noOption_iff s l)

/-- A request that is sent when the resend interval is negative. -/
theorem actionSend_negative {s : Req} {allowDelay : Bool} (hivl : s.resendIvl < 0)
    (hpipe : ∃ r p, s.xreq.sendTo (s.request.content {}) = .ok (r, some p)) :
    s.actionSend allowDelay = .error .assertion := by
  obtain ⟨r, p, hcall⟩ := hpipe
  have hneg : ¬0 ≤ s.resendIvl := by omega
  simp [Req.actionSend, hcall, Timer.start, gridAssert, hneg]

/-- After any negative value the first request that goes through a pipe aborts. -/
theorem req_aborts {optval : List UInt8} (hlen : optval.length = 4) (hneg : cInt optval < 0)
    (hP : P (cInt optval)) :
    ∃ s, (reqSystem.restrict (Accepts reqSetopt P)).Reachable s ∧ Req.Enabled s (.csend [97]) ∧
      s.next (.csend [97]) = .error .assertion := by
  have hrun : (Req.after NoOption attached).any (fun s =>
      s.sock = .active ∧ s.events = [] ∧ s.fsm = .active ∧ s.state = .passive ∧
        s.request = .blank ∧ s.id = 0 ∧
        ((s.xreq.sendTo { sphdr := putl (setTopBit 1), body := [97] }).toOption.any
          fun r => r.2 = some 1) = true) = true := by
    decide +kernel
  obtain ⟨s, hs, hp⟩ := (Option.any_eq_true _ _).mp hrun
  obtain ⟨hsock, hev, hfsm, hst, hreq, hid, hsend⟩ := of_decide_eq_true hp
  have hreach : (reqSystem.restrict (Accepts reqSetopt P)).Reachable s :=
    reachable_own (G := NoOption) (fun _ _ h => h) (Req.reachable_after hs)
  refine ⟨{ s with resendIvl := cInt optval }, ?_, ⟨hsock, hev⟩, ?_⟩
  · exact reachable_setopt hreach ⟨hsock, hev⟩ (setoptInt_of_length hlen) hP
  · have hpipe : ∃ r p, s.xreq.sendTo { sphdr := putl (setTopBit 1), body := [97] } =
        .ok (r, some p) := by
      cases hcall : s.xreq.sendTo { sphdr := putl (setTopBit 1), body := [97] } with
      | error e => simp [hcall, Except.toOption] at hsend
      | ok r =>
          rw [hcall] at hsend
          exact ⟨r.1, 1, congrArg Except.ok (Prod.ext rfl (of_decide_eq_true hsend))⟩
    simp only [Req.next, Req.csend, Req.action, Req.feed, Req.handler, hfsm, hst, hreq, hid,
      Slot.term, Slot.put]
    rw [if_neg (by simp), actionSend_negative hneg hpipe]
    rfl

/-! ## `GRID_SURVEYOR_DEADLINE` -/

/-- A SURVEYOR socket whose user sets options. -/
def surveyorSystem : System Surveyor (OptLabel Surveyor.Label) :=
  withOptions Surveyor.system (fun l => ∀ deadline, l ≠ .setDeadline deadline)
    (fun s => s.events = []) surveyorSetopt

/-- When only values in `P` are accepted for the deadline, no assertion fails but the one
about the header of a survey. -/
def SurveyorSafe (P : Int → Prop) : Prop :=
  ∀ s, (surveyorSystem.restrict (Accepts surveyorSetopt P)).Reachable s →
    ∀ l, Surveyor.Enabled s l → s.next l = .error .assertion →
      ∃ msg, l = .send msg ∧ msg.sphdr ≠ []

theorem deadline_nonneg {s : Surveyor}
    (h : (Surveyor.system.restrict Surveyor.NonNegative).Reachable s) : 0 ≤ s.deadline := by
  refine h.invariant (P := fun s => 0 ≤ s.deadline) ?_ ?_
  · intro s hs
    rw [(Surveyor.inv_init hs).2]
    decide
  · rintro s l s' hs hnonneg ⟨hset, hstep⟩
    have hinv := Surveyor.inv_reachable hs.of_restrict
    cases l with
    | setDeadline deadline =>
        obtain ⟨-, r, hnext⟩ := hstep
        obtain ⟨rfl, -⟩ := Prod.mk.inj (Except.ok.inj hnext)
        exact hset deadline rfl
    | _ =>
        rw [(hinv.step hstep).2.2.1 (by simp)]
        exact hnonneg

theorem surveyorSafe_of_nonNegative (h : NonNegativeValues P) : SurveyorSafe P := by
  intro s hs l hl hfail
  have hreach : (Surveyor.system.restrict Surveyor.NonNegative).Reachable s := by
    refine reachable_of_settings ?_ ?_ hs
    · intro s l hother deadline heq
      exact absurd heq (hother deadline)
    · intro s level option optval s' hopen hcall hP
      obtain ⟨rfl, hlen⟩ := setoptInt_eq_ok hcall
      refine ⟨.setDeadline (cInt optval), ?_, hopen, .ok, rfl⟩
      intro deadline heq
      obtain rfl := Surveyor.Label.setDeadline.inj heq
      exact h optval hlen hP
  have hdeadline := deadline_nonneg hreach
  rcases Surveyor.step_spec (Surveyor.inv_reachable hreach.of_restrict) hl with ⟨s', r, hok, -⟩ |
    ⟨-, hneg⟩ | ⟨herr, -⟩ | ⟨-, hmsg⟩
  · exact absurd (hfail.symm.trans hok) (by simp)
  · omega
  · exact absurd (hfail.symm.trans herr) (by simp)
  · exact hmsg

/-- A survey that is sent when the deadline is negative. -/
theorem launch_negative {s : Surveyor} (hnet : Surveyor.NetInv s) (hdeadline : s.deadline < 0) :
    s.launch = .error .assertion := by
  obtain ⟨x', hsend, -⟩ := Xsurveyor.send_spec hnet s.tosend
  have hneg : ¬0 ≤ s.deadline := by omega
  simp [Surveyor.launch, Surveyor.resend, hsend, Timer.start, gridAssert, hneg]

/-- After any negative value the first survey aborts. -/
theorem surveyor_aborts {optval : List UInt8} (hlen : optval.length = 4) (hneg : cInt optval < 0)
    (hP : P (cInt optval)) :
    ∃ s, (surveyorSystem.restrict (Accepts surveyorSetopt P)).Reachable s ∧
      Surveyor.Enabled s (.send { body := [97] }) ∧
      s.next (.send { body := [97] }) = .error .assertion := by
  have hreach : (surveyorSystem.restrict (Accepts surveyorSetopt P)).Reachable
      (Surveyor.created 0) := .start ⟨0, rfl⟩
  refine ⟨{ Surveyor.created 0 with deadline := cInt optval }, ?_, rfl, ?_⟩
  · exact reachable_setopt hreach rfl (setoptInt_of_length hlen) hP
  · let s : Surveyor := { Surveyor.created 0 with
      surveyid := Surveyor.nextId 0, deadline := cInt optval,
      tosend := { sphdr := putl (Surveyor.nextId 0), body := [97] } }
    have hnet : Surveyor.NetInv s := (Surveyor.inv_init ⟨0, rfl⟩).1.net
    have hcall : ({ Surveyor.created 0 with deadline := cInt optval } : Surveyor).next
        (.send { body := [97] }) = s.launch >>= fun s => Except.ok (s, SurveyorResult.ok) := rfl
    rw [hcall, launch_negative hnet hneg]
    rfl

/-! ## All accepted values -/

/-- No run of a REQ or of a SURVEYOR socket in which the accepted values lie in `P` fails
the assertion of `grid_timer_start`, if and only if no accepted value in `P` is negative. -/
theorem accepted_values_safe (P : Int → Prop) :
    (ReqSafe P ↔ NonNegativeValues P) ∧ (SurveyorSafe P ↔ NonNegativeValues P) := by
  refine ⟨⟨?_, reqSafe_of_nonNegative⟩, ⟨?_, surveyorSafe_of_nonNegative⟩⟩
  · intro hsafe optval hlen hP
    by_contra hneg
    obtain ⟨s, hs, hl, hfail⟩ := req_aborts hlen (Int.not_le.mp hneg) hP
    exact hsafe s hs _ hl hfail
  · intro hsafe optval hlen hP
    by_contra hneg
    obtain ⟨s, hs, hl, hfail⟩ := surveyor_aborts hlen (Int.not_le.mp hneg) hP
    obtain ⟨msg, heq, hhdr⟩ := hsafe s hs _ hl hfail
    obtain rfl := Surveyor.Label.send.inj heq
    exact hhdr rfl

/-- The value -1 is accepted by both, and aborts both. -/
theorem not_accepted_values_safe :
    ¬ReqSafe (fun _ => True) ∧ ¬SurveyorSafe (fun _ => True) := by
  have hneg : cInt [255, 255, 255, 255] < 0 := by decide
  refine ⟨fun hsafe => ?_, fun hsafe => ?_⟩
  · obtain ⟨s, hs, hl, hfail⟩ := req_aborts (P := fun _ => True) rfl hneg trivial
    exact hsafe s hs _ hl hfail
  · obtain ⟨s, hs, hl, hfail⟩ := surveyor_aborts (P := fun _ => True) rfl hneg trivial
    obtain ⟨msg, heq, hhdr⟩ := hsafe s hs _ hl hfail
    obtain rfl := Surveyor.Label.send.inj heq
    exact hhdr rfl

end GridMq.Survey
