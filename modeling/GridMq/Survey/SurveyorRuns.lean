import GridMq.Library.Transition
import GridMq.Survey.SurveyorSteps

set_option autoImplicit false

/-!
# Runs of a SURVEYOR socket

What the user of a SURVEYOR socket can know of its surveys is a `UserView`: the IDs of those
that were sent, whether the last one is in force, and whether its end is still to be
reported.  `Agrees` relates it to the socket along every run, and `surveyor_protocol` says
what a receive gives.
-/

namespace GridMq.Survey

open GridMq.Core GridMq.Protocols GridMq.Aio GridMq.ReqRep GridMq.Library

/-! ## IDs -/

/-- An ID that a survey can have. -/
def IsId (id : Nat) : Prop := 2 ^ 31 ≤ id ∧ id < 2 ^ 32

theorem setTopBit_of_lt {n : Nat} (h : n < 2 ^ 31) : setTopBit n = n + 2 ^ 31 := by
  unfold setTopBit
  have hor := Nat.two_pow_add_eq_or_of_lt h 1
  rw [Nat.mul_one] at hor
  rw [Nat.lor_comm, ← hor, Nat.add_comm]

theorem setTopBit_of_isId {n : Nat} (h : IsId n) : setTopBit n = n := by
  have hlow : n - 2 ^ 31 < 2 ^ 31 := by
    have := h.1
    have := h.2
    omega
  have hn : n = setTopBit (n - 2 ^ 31) := by
    rw [setTopBit_of_lt hlow]
    have := h.1
    omega
  rw [hn, setTopBit, setTopBit, Nat.or_assoc, Nat.or_self]

namespace Surveyor

theorem nextId_isId (surveyid : Nat) : IsId (nextId surveyid) := by
  have hlt := nextId_lt surveyid
  exact ⟨(topBit_iff hlt).mp (topBit_setTopBit _), hlt⟩

/-- The IDs go round. -/
theorem nextId_of_isId {id : Nat} (h : IsId id) :
    nextId id = 2 ^ 31 + (id - 2 ^ 31 + 1) % 2 ^ 31 := by
  obtain ⟨hlow, hhigh⟩ := h
  unfold nextId
  by_cases hlast : id + 1 = 2 ^ 32
  · rw [hlast, Nat.mod_self, setTopBit_of_lt (by decide)]
    have : id - 2 ^ 31 + 1 = 2 ^ 31 := by omega
    rw [this, Nat.mod_self, Nat.zero_add, Nat.add_zero]
  · have hlt : id + 1 < 2 ^ 32 := by omega
    rw [Nat.mod_eq_of_lt hlt, setTopBit_of_isId ⟨by omega, hlt⟩]
    have : id - 2 ^ 31 + 1 < 2 ^ 31 := by omega
    rw [Nat.mod_eq_of_lt this]
    omega

end Surveyor

/-- IDs of surveys that were sent one after the other. -/
structure Consecutive (ids : List Nat) : Prop where
  isId : ∀ id ∈ ids, IsId id
  succ : ∀ i a b, ids[i]? = some a → ids[i + 1]? = some b → b = Surveyor.nextId a

theorem Consecutive.concat {ids : List Nat} (h : Consecutive ids) {id : Nat} (hid : IsId id)
    (hlast : ∀ a, ids.getLast? = some a → id = Surveyor.nextId a) : Consecutive (ids ++ [id]) where
  isId a ha := by
    rcases List.mem_append.mp ha with ha | ha
    · exact h.isId a ha
    · exact List.mem_singleton.mp ha ▸ hid
  succ i a b ha hb := by
    by_cases hi : i + 1 < ids.length
    · rw [List.getElem?_append_left (by omega)] at ha
      rw [List.getElem?_append_left hi] at hb
      exact h.succ i a b ha hb
    · have hlen : i + 1 < (ids ++ [id]).length := (List.getElem?_eq_some_iff.mp hb).1
      rw [List.length_append, List.length_singleton] at hlen
      have hend : i + 1 = ids.length := by omega
      rw [hend, List.getElem?_concat_length] at hb
      rw [List.getElem?_append_left (by omega)] at ha
      obtain rfl := Option.some.inj hb
      refine hlast a ?_
      rw [List.getLast?_eq_getElem?, ← hend]
      exact ha

/-- An ID some surveys later. -/
theorem Consecutive.later {ids : List Nat} (h : Consecutive ids) {i a : Nat}
    (ha : ids[i]? = some a) (k : Nat) :
    ∀ {b : Nat}, ids[i + k]? = some b → b = 2 ^ 31 + (a - 2 ^ 31 + k) % 2 ^ 31 := by
  have hida := h.isId a (List.mem_of_getElem? ha)
  induction k with
  | zero =>
      intro b hb
      obtain rfl := Option.some.inj (ha.symm.trans hb)
      obtain ⟨hlow, hhigh⟩ := hida
      rw [Nat.add_zero, Nat.mod_eq_of_lt (by omega)]
      omega
  | succ k ih =>
      intro b hb
      have hlen := (List.getElem?_eq_some_iff.mp hb).1
      obtain ⟨c, hc⟩ : ∃ c, ids[i + k]? = some c :=
        ⟨_, List.getElem?_eq_getElem (by omega)⟩
      have hcb := h.succ (i + k) c b hc hb
      rw [hcb, Surveyor.nextId_of_isId (h.isId c (List.mem_of_getElem? hc)), ih hc]
      omega

/-- Fewer than `2 ^ 31` surveys later the ID is another one. -/
theorem Consecutive.ne {ids : List Nat} (h : Consecutive ids) {i j a b : Nat} (hij : i < j)
    (hnear : j - i < 2 ^ 31) (ha : ids[i]? = some a) (hb : ids[j]? = some b) : a ≠ b := by
  obtain ⟨k, rfl⟩ : ∃ k, j = i + k := ⟨j - i, by omega⟩
  have hlater := h.later ha k hb
  obtain ⟨hlow, hhigh⟩ := h.isId a (List.mem_of_getElem? ha)
  omega

/-! ## What the user knows -/

/-- What the user of a SURVEYOR socket can know of its surveys. -/
structure UserView where
  /-- the IDs of the surveys that were sent -/
  ids : List Nat := []
  /-- the last survey was sent, and its timer has not stopped after the deadline -/
  inForce : Bool := false
  /-- the deadline of the last survey has passed -/
  expired : Bool := false
  /-- the end of the last survey was not reported yet -/
  due : Bool := false

/-- What happens to a survey. -/
inductive Occurrence where
  | sent (id : Nat)
  | timeout
  | stopped
  | received
  | other
  deriving DecidableEq

namespace UserView

/-- What the user knows afterwards. -/
def observe (self : UserView) : Occurrence → UserView
  | .sent id => { ids := self.ids ++ [id], inForce := true }
  | .timeout => { self with expired := true }
  | .stopped =>
      if self.expired then { self with inForce := false, expired := false, due := true } else self
  | .received => if self.inForce then self else { self with due := false }
  | .other => self

end UserView

namespace Surveyor

/-- What happens to a survey in a step: the ID is the one the survey is tagged with. -/
def occurrence (s : Surveyor) (l : Label) (s' : Surveyor) : Occurrence :=
  match l with
  | .send _ => .sent (getl s'.tosend.sphdr)
  | .recv _ => .received
  | .deliver =>
      match s.events with
      | .timer .timeout :: _ => .timeout
      | .timer .stopped :: _ => .stopped
      | _ => .other
  | _ => .other

/-- The SURVEYOR socket as a transition system. -/
def system : System Surveyor Label where
  init s := ∃ surveyid, init surveyid = .ok s
  step s l s' := s.Enabled l ∧ ∃ r, s.next l = .ok (s', r)

/-- The same with what its user knows. -/
def observed : System (Surveyor × UserView) Label where
  init p := system.init p.1 ∧ p.2 = {}
  step p l p' := system.step p.1 l p'.1 ∧ p'.2 = p.2.observe (p.1.occurrence l p'.1)

/-- The deadline is only set to values that are not negative. -/
def NonNegative {σ : Type} (_ : σ) (l : Label) : Prop :=
  ∀ deadline, l = .setDeadline deadline → 0 ≤ deadline

theorem inv_init {s : Surveyor} (h : system.init s) : Inv s ∧ s.deadline = 1000 := by
  obtain ⟨surveyid, h⟩ := h
  obtain rfl := Except.ok.inj h
  refine ⟨⟨Nat.mod_lt _ (by decide), List.nodup_nil, List.not_mem_nil, ?_, ?_⟩, rfl⟩
  · exact Xsurveyor.inv_init.congr (fun _ => ⟨fun h => absurd h List.not_mem_nil, False.elim⟩)
      (fun _ => ⟨fun h => absurd h List.not_mem_nil, False.elim⟩)
  · exact ⟨Timer.quiet_default, Req.noTimer_nil⟩

/-- A step that was taken kept the invariant and had its effect. -/
theorem Inv.step {s s' : Surveyor} {l : Label} (h : Inv s) (hstep : system.step s l s') :
    Inv s' ∧ (∃ r, s.next l = .ok (s', r) ∧ Effect s l r s') ∧
      ((∀ deadline, l ≠ .setDeadline deadline) → s'.deadline = s.deadline) ∧
      ((∀ slot, l ≠ .recv slot) → SameLog s s') := by
  obtain ⟨hl, r, hnext⟩ := hstep
  rcases step_spec h hl with ⟨s₁, r₁, hok, hinv, heff, hdeadline, hlog⟩ | ⟨herr, -⟩ | ⟨herr, -⟩ |
    ⟨herr, -⟩
  · obtain ⟨rfl, rfl⟩ := Prod.mk.inj (Except.ok.inj (hnext.symm.trans hok))
    exact ⟨hinv, ⟨r, hok, heff⟩, hdeadline, hlog⟩
  · exact absurd (hnext.symm.trans herr) (by simp)
  · exact absurd (hnext.symm.trans herr) (by simp)
  · exact absurd (hnext.symm.trans herr) (by simp)

theorem inv_reachable {s : Surveyor} (h : system.Reachable s) : Inv s := by
  refine h.invariant ?_ ?_
  · intro s hs
    exact (inv_init hs).1
  · intro s l s' _ hinv hstep
    exact (hinv.step hstep).1

/-! ## What the user knows is right -/

/-- The socket and what its user knows. -/
structure Agrees (s : Surveyor) (o : UserView) : Prop where
  inForce : o.inForce = s.inprogress
  expired : o.expired = true ↔ s.state = .stoppingTimer
  due : s.inprogress = false → o.due = s.timedout
  last : ∀ id, o.ids.getLast? = some id → s.surveyid = id
  sent : s.inprogress = true → o.ids ≠ []
  ids : Consecutive o.ids

variable {s s' : Surveyor} {o : UserView}

theorem agrees_init (h : system.init s) : Agrees s {} := by
  obtain ⟨surveyid, h⟩ := h
  obtain rfl := Except.ok.inj h
  refine ⟨rfl, by simp, fun _ => rfl, fun id hid => absurd hid (by simp), ?_, ?_⟩
  · intro hbusy
    exact absurd hbusy (by simp [inprogress])
  · exact ⟨fun id hid => absurd hid List.not_mem_nil, fun i a b ha => absurd ha (by simp)⟩

theorem inprogress_congr (h : s'.state = s.state) : s'.inprogress = s.inprogress := by
  unfold inprogress
  rw [h]

/-- The survey is as it was. -/
theorem Agrees.keep (h : Agrees s o) (hkeep : Keeps s s') : Agrees s' o where
  inForce := by rw [inprogress_congr hkeep.state]; exact h.inForce
  expired := by rw [hkeep.state]; exact h.expired
  due := by rw [inprogress_congr hkeep.state, hkeep.timedout]; exact h.due
  last := by rw [hkeep.surveyid]; exact h.last
  sent := by rw [inprogress_congr hkeep.state]; exact h.sent
  ids := h.ids

/-- A step that does not concern the survey. -/
theorem Aside.occurrence {l : Label} (h : Aside s l) : s.occurrence l s' = .other := by
  obtain ⟨hsend, hrecv, htimer⟩ := h
  cases l with
  | send msg => exact absurd rfl (hsend msg)
  | recv slot => exact absurd rfl (hrecv slot)
  | deliver =>
      have hno := htimer rfl
      change (match s.events with
        | .timer .timeout :: _ => Occurrence.timeout
        | .timer .stopped :: _ => .stopped
        | _ => .other) = _
      split
      · rename_i rest hev
        exact absurd hev (hno _ _)
      · rename_i rest hev
        exact absurd hev (hno _ _)
      · rfl
  | notify e => rfl
  | setDeadline d => rfl
  | workerTask => rfl
  | workerTimeout => rfl

theorem Agrees.step {l : Label} {r : SurveyorResult} (hinv : Inv s) (h : Agrees s o)
    (heff : Effect s l r s') :
    Agrees s' (o.observe (s.occurrence l s')) := by
  cases heff with
  | keep hkeep hl =>
      rw [hl.occurrence]
      exact h.keep hkeep
  | sent msg hl hr hid htosend hstate htimedout =>
      have hlt := nextId_lt s.surveyid
      have htag : getl s'.tosend.sphdr = nextId s.surveyid := by
        rw [htosend]
        have hget := getl_putl hlt []
        rwa [List.append_nil] at hget
      subst hl
      have hbusy : s'.inprogress = true := by
        unfold inprogress
        rcases hstate with hst | hst <;> rw [hst] <;> rfl
      simp only [Surveyor.occurrence, htag, UserView.observe]
      refine ⟨hbusy.symm, ?_, ?_, ?_, fun _ => by simp, ?_⟩
      · refine iff_of_false (by simp) ?_
        rcases hstate with hst | hst <;> rw [hst] <;> simp
      · intro hidle
        exact absurd (hbusy.symm.trans hidle) (by simp)
      · intro id hlast
        rw [List.getLast?_concat] at hlast
        rw [hid]
        exact Option.some.inj hlast
      · refine h.ids.concat (nextId_isId _) ?_
        intro a ha
        rw [h.last a ha]
  | elapsed e rest hl hev helapsed hid =>
      subst hl
      cases helapsed with
      | expired he hfrom hstate htimedout =>
          subst he
          simp only [Surveyor.occurrence, hev, UserView.observe]
          have hbusy : s'.inprogress = true := by simp [inprogress, hstate]
          refine ⟨?_, by simp [hstate], ?_, by rw [hid]; exact h.last, ?_, h.ids⟩
          · rw [h.inForce, hbusy]
            simp [inprogress, hfrom]
          · intro hidle
            exact absurd (hbusy.symm.trans hidle) (by simp)
          · intro _
            exact h.sent (by simp [inprogress, hfrom])
      | resent he hfrom hstate htimedout =>
          subst he
          have hno : o.expired = false := by
            rw [← Bool.not_eq_true, h.expired, hfrom]
            simp
          simp only [Surveyor.occurrence, hev, UserView.observe, hno]
          have hbusy : s'.inprogress = true := by simp [inprogress, hstate]
          refine ⟨?_, by simp [hstate, hno], ?_, by rw [hid]; exact h.last, ?_, h.ids⟩
          · change o.inForce = _
            rw [h.inForce, hbusy]
            simp [inprogress, hfrom]
          · intro hidle
            exact absurd (hbusy.symm.trans hidle) (by simp)
          · intro _
            exact h.sent (by simp [inprogress, hfrom])
      | ended he hfrom hstate htimedout =>
          subst he
          have hyes : o.expired = true := h.expired.mpr hfrom
          simp only [Surveyor.occurrence, hev, UserView.observe, hyes, if_true]
          have hidle : s'.inprogress = false := by simp [inprogress, hstate]
          refine ⟨hidle.symm, by simp [hstate], ?_, by rw [hid]; exact h.last, ?_, h.ids⟩
          · intro _
            rw [htimedout]
            have hmachine := hinv.machine
            unfold StateInv at hmachine
            simp only [hfrom] at hmachine
            exact hmachine.2.symm
          · intro hbusy
            exact absurd (hbusy.symm.trans hidle) (by simp)
  | refused slot hl hidle hr hstate hid htimedout =>
      subst hl
      have hoff : o.inForce = false := h.inForce.trans hidle
      have hidle' : s'.inprogress = false := (inprogress_congr hstate).trans hidle
      simp only [Surveyor.occurrence, UserView.observe, hoff, Bool.false_eq_true, if_false]
      refine ⟨hidle'.symm, by rw [hstate]; exact h.expired, ?_, by rw [hid]; exact h.last,
        ?_, h.ids⟩
      · intro _
        exact htimedout.symm
      · intro hbusy
        exact absurd (hbusy.symm.trans hidle') (by simp)
  | received slot hl hbusy hkeep hr =>
      subst hl
      have hon : o.inForce = true := h.inForce.trans hbusy
      simp only [Surveyor.occurrence, UserView.observe, hon, if_true]
      exact h.keep hkeep

theorem Agrees.run {p : Surveyor × UserView} (h : (observed.restrict NonNegative).Reachable p) :
    system.Reachable p.1 ∧ Agrees p.1 p.2 ∧ 0 ≤ p.1.deadline := by
  refine h.invariant (P := fun p => system.Reachable p.1 ∧ Agrees p.1 p.2 ∧ 0 ≤ p.1.deadline) ?_ ?_
  · rintro ⟨s, o⟩ ⟨hs, ho⟩
    have ho : o = {} := ho
    subst ho
    refine ⟨.start hs, agrees_init hs, ?_⟩
    rw [(inv_init hs).2]
    decide
  · rintro ⟨s, o⟩ l ⟨s', o'⟩ - ⟨hreach, hagrees, hnonneg⟩ ⟨hset, hstep, ho⟩
    have ho : o' = o.observe (s.occurrence l s') := ho
    subst ho
    have hinv := inv_reachable hreach
    obtain ⟨-, ⟨r, -, heff⟩, hdeadline, -⟩ := hinv.step hstep
    refine ⟨hreach.step hstep, hagrees.step hinv heff, ?_⟩
    by_cases hl : ∃ deadline, l = .setDeadline deadline
    · obtain ⟨deadline, rfl⟩ := hl
      obtain ⟨-, r, hnext⟩ := hstep
      obtain ⟨rfl, -⟩ := Prod.mk.inj (Except.ok.inj hnext)
      exact hset deadline rfl
    · have hother : ∀ deadline, l ≠ .setDeadline deadline := fun d hd => hl ⟨d, hd⟩
      change 0 ≤ s'.deadline
      rw [hdeadline hother]
      exact hnonneg

/-! ## The protocol -/

/-- In every run with deadlines that are not negative no step fails in the state machine;
a receive gives responses to the last survey only, and only while it is in force; the IDs
of fewer than `2 ^ 31` surveys in a row differ; and when no survey is in force the end of
the last one is reported once. -/
theorem surveyor_protocol {s : Surveyor} {o : UserView}
    (h : (observed.restrict NonNegative).Reachable (s, o)) :
    (∀ l, s.Enabled l → (∃ s' r, s.next l = .ok (s', r)) ∨
      s.next l = .error .nullPointer ∧ Dangling s l ∨
      s.next l = .error .assertion ∧ ∃ msg, l = .send msg ∧ msg.sphdr ≠ []) ∧
    (∀ slot s' wire msg, s.next (.recv slot) = .ok (s', .response wire msg) →
      o.inForce = true ∧
        ∃ id, o.ids.getLast? = some id ∧ wire = putl id ++ msg.body ∧ msg.sphdr = []) ∧
    (∀ id ∈ o.ids, topBit id = true) ∧
    (∀ i j a b, i < j → j - i < 2 ^ 31 → o.ids[i]? = some a → o.ids[j]? = some b → a ≠ b) ∧
    (o.inForce = false → ∀ slot, ∃ s',
      s.next (.recv slot) = .ok (s', if o.due then .timedout else .efsm)) := by
  obtain ⟨hreach, hagrees, hnonneg⟩ := Agrees.run h
  have hinv := inv_reachable hreach
  refine ⟨?_, ?_, ?_, ?_, ?_⟩
  · intro l hl
    rcases step_spec hinv hl with ⟨s', r, hok, -⟩ | ⟨-, hneg⟩ | herr | herr
    · exact Or.inl ⟨s', r, hok⟩
    · exact absurd hnonneg (Int.not_le.mpr hneg)
    · exact Or.inr (Or.inl herr)
    · exact Or.inr (Or.inr herr)
  · intro slot s' wire msg hnext
    rcases recv_spec slot hinv with ⟨s₁, r, hok, -, heff, -⟩ | ⟨herr, -⟩ | ⟨herr, -⟩ | ⟨herr, -⟩
    · obtain ⟨rfl, rfl⟩ := Prod.mk.inj (Except.ok.inj (hok.symm.trans hnext))
      cases heff with
      | keep hkeep hl => exact absurd rfl (hl.2.1 slot)
      | sent msg' hl => exact absurd hl (by simp)
      | elapsed e rest hl => exact absurd hl (by simp)
      | refused slot' hl hidle hr =>
          split at hr <;> exact absurd hr (by simp)
      | received slot' hl hbusy hkeep hr =>
          rcases hr with hr | ⟨wire', msg', hr, hwire, hhdr⟩
          · exact absurd hr (by simp)
          · obtain ⟨rfl, rfl⟩ := SurveyorResult.response.inj hr
            obtain ⟨id, hid⟩ : ∃ id, o.ids.getLast? = some id :=
              ⟨_, List.getLast?_eq_some_getLast (hagrees.sent hbusy)⟩
            exact ⟨hagrees.inForce.trans hbusy, id, hid, by rw [← hagrees.last id hid]; exact hwire,
              hhdr⟩
    · exact absurd (herr.symm.trans hnext) (by simp)
    · exact absurd (herr.symm.trans hnext) (by simp)
    · exact absurd (herr.symm.trans hnext) (by simp)
  · intro id hid
    obtain ⟨hlow, hhigh⟩ := hagrees.ids.isId id hid
    exact (topBit_iff hhigh).mpr hlow
  · intro i j a b hij hnear ha hb
    exact hagrees.ids.ne hij hnear ha hb
  · intro hoff slot
    have hidle : s.inprogress = false := hagrees.inForce.symm.trans hoff
    rw [hagrees.due hidle]
    cases htimedout : s.timedout with
    | true => exact ⟨{ s with timedout := false }, by simp [next, recv, hidle, htimedout]⟩
    | false => exact ⟨s, by simp [next, recv, hidle, htimedout]⟩

/-! ## Computing a run -/

instance (s : Surveyor) (l : Label) : Decidable (s.Enabled l) :=
  match l with
  | .notify _ => inferInstanceAs (Decidable True)
  | .deliver => inferInstanceAs (Decidable (_ ≠ _))
  | .send _ | .recv _ | .setDeadline _ => inferInstanceAs (Decidable (_ = _))
  | .workerTask => inferInstanceAs (Decidable (_ ≠ _ ∧ _))
  | .workerTimeout => inferInstanceAs (Decidable (_ ∧ _))

instance {σ : Type} (s : σ) (l : Label) : Decidable (NonNegative s l) :=
  match l with
  | .setDeadline deadline => decidable_of_iff (0 ≤ deadline)
      ⟨fun h _ heq => Label.setDeadline.inj heq ▸ h, fun h => h deadline rfl⟩
  | .notify _ | .deliver | .send _ | .recv _ | .workerTask | .workerTimeout =>
      isTrue fun _ heq => nomatch heq

/-- A step with what the user knows afterwards. -/
def attempt (p : Surveyor × UserView) (l : Label) : Option (Surveyor × UserView) :=
  System.tryStep (p.1.Enabled l ∧ NonNegative p l)
    ((p.1.next l).map fun r => (r.1, p.2.observe (p.1.occurrence l r.1)))

theorem attempt_step (p : Surveyor × UserView) (l : Label) (p' : Surveyor × UserView)
    (h : attempt p l = some p') : (observed.restrict NonNegative).step p l p' := by
  obtain ⟨⟨hen, hset⟩, hnext⟩ := System.tryStep_eq_some h
  cases hcall : p.1.next l with
  | error e => simp [hcall, Except.map] at hnext
  | ok r =>
      rw [hcall] at hnext
      obtain rfl := Except.ok.inj hnext
      exact ⟨hset, ⟨hen, r.2, hcall⟩, rfl⟩

/-- The socket as it is created, for a random number. -/
def created (surveyid : Nat) : Surveyor := { surveyid := surveyid % 2 ^ 32, state := .passive }

/-- The state after a run. -/
def after (labels : List Label) : Option (Surveyor × UserView) :=
  System.follow attempt (created 0, {}) labels

theorem after_reachable {labels : List Label} {p : Surveyor × UserView}
    (h : after labels = some p) : (observed.restrict NonNegative).Reachable p := by
  have hinit : (observed.restrict NonNegative).init (created 0, {}) := ⟨⟨0, rfl⟩, rfl⟩
  exact (System.Reachable.start hinit).follow attempt_step h

/-- A survey is sent to one respondent, and its response comes in. -/
def answered : List Label :=
  [.notify (.start 1 defaultPriority defaultPriority), .deliver, .deliver, .send { body := [97] },
    .notify (.received 1 (putl (2 ^ 31 + 1) ++ [98])), .deliver, .deliver]

/-- A survey is sent, and its deadline passes. -/
def lapsed : List Label :=
  [.send { body := [97] }, .workerTask, .workerTimeout, .deliver, .workerTask, .deliver]

theorem surveyor_protocol_answered :
    (∃ s o s', after answered = some (s, o) ∧
      s.next (.recv .blank) = .ok (s', .response (putl (2 ^ 31 + 1) ++ [98]) { body := [98] }) ∧
      o.inForce = true) ∧
    ∃ s o s', after lapsed = some (s, o) ∧ o.inForce = false ∧
      s.next (.recv .blank) = .ok (s', .timedout) := by
  refine ⟨?_, ?_⟩
  · have hrun : (after answered).any (fun p => (p.1.next (.recv .blank)).toOption.any fun r =>
        r.2 = .response (putl (2 ^ 31 + 1) ++ [98]) { body := [98] }) = true := by decide +kernel
    obtain ⟨⟨s, o⟩, hs, hp⟩ := (Option.any_eq_true _ _).mp hrun
    obtain ⟨⟨s', r⟩, hr, hp⟩ := (Option.any_eq_true _ _).mp hp
    have hresult : r = .response (putl (2 ^ 31 + 1) ++ [98]) { body := [98] } :=
      of_decide_eq_true hp
    subst hresult
    have hnext : s.next (.recv .blank) =
        .ok (s', .response (putl (2 ^ 31 + 1) ++ [98]) { body := [98] }) := by
      cases hcall : s.next (.recv .blank) with
      | error e => simp [hcall, Except.toOption] at hr
      | ok r =>
          simp only [hcall, Except.toOption] at hr
          rw [Option.some.inj hr]
    obtain ⟨hforce, -⟩ := (surveyor_protocol (after_reachable hs)).2.1 _ _ _ _ hnext
    exact ⟨s, o, s', hs, hnext, hforce⟩
  · have hrun : (after lapsed).any (fun p => p.2.inForce = false ∧ p.2.due = true) = true := by
      decide +kernel
    obtain ⟨⟨s, o⟩, hs, hp⟩ := (Option.any_eq_true _ _).mp hrun
    obtain ⟨hoff, hdue⟩ := of_decide_eq_true hp
    obtain ⟨s', hnext⟩ := (surveyor_protocol (after_reachable hs)).2.2.2.2 hoff .blank
    rw [show o.due = true from hdue] at hnext
    exact ⟨s, o, s', hs, hoff, hnext⟩

end Surveyor

end GridMq.Survey
