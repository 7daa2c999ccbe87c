import GridMq.Library.Total
import GridMq.Transports.Statistics

set_option autoImplicit false

/-!
# Runs of a socket and its statistics

What one step of an endpoint adds to the counters of its socket: an attempt that is not
counted off when the endpoint is stopped, an error that is not counted off when the endpoint
is terminated or reports none, and otherwise what it has come to itself.
-/

namespace GridMq.Transports

open GridMq.Library

/-! ## One call -/

namespace StatCall

/-- The attempts that an endpoint has counted after a call, if the call may follow `n`. -/
def attempts (n : Nat) : StatCall → Option Nat
  | .increment .inprogressConnections k =>
      if k = 1 then some (n + 1) else if k = -1 ∧ 0 < n then some (n - 1) else none
  | .increment .currentEpErrors _ => none
  | .increment _ k => if k = 1 then some n else none
  | .setError _ => some n
  | .clearError => some n

/-- The last error of an endpoint after a call. -/
def errno (last : Int) : StatCall → Int
  | .increment _ _ => last
  | .setError errnum => errnum
  | .clearError => 0

/-- A call that takes the last error away and leaves it counted. -/
def forgotten (last : Int) : StatCall → Nat
  | .setError errnum => if errnum = 0 ∧ last ≠ 0 then 1 else 0
  | _ => 0

/-- The errors that several calls leave counted. -/
def allForgotten (last : Int) : List StatCall → Nat
  | [] => 0
  | c :: cs => c.forgotten last + allForgotten (c.errno last) cs

theorem allForgotten_append (last : Int) (cs cs' : List StatCall) :
    ∃ last', allForgotten last (cs ++ cs') = allForgotten last cs + allForgotten last' cs' := by
  induction cs generalizing last with
  | nil => exact ⟨last, by simp [allForgotten]⟩
  | cons c cs ih =>
      obtain ⟨last', hrest⟩ := ih (c.errno last)
      refine ⟨last', ?_⟩
      simp only [List.cons_append, allForgotten, hrest]
      omega

end StatCall

/-- An error counts once. -/
def errorWeight (errno : Int) : Nat := if errno ≠ 0 then 1 else 0

/-- The counters are made up of an endpoint's own part, `n` attempts and its error, and of
`p` attempts and `e` errors besides. -/
structure EpStat.Shares (st : EpStat) (p n e : Nat) : Prop where
  inprogress : st.inprogressConnections = p + n
  errors : st.currentEpErrors = e + errorWeight st.lastErrno

namespace EpStat.Shares

variable {st : EpStat} {p n n' e : Nat}

theorem increment (h : st.Shares p n e) {name : Stat} {k : Int}
    (hn : (StatCall.increment name k).attempts n = some n') :
    ∃ st', st.increment name k = .ok st' ∧ st'.Shares p n' e ∧
      st'.lastErrno = st.lastErrno := by
  cases name with
  | inprogressConnections =>
      have hin := h.inprogress
      simp only [StatCall.attempts] at hn
      split at hn
      · rename_i hk
        subst hk
        have hn := Option.some.inj hn
        refine ⟨_, rfl, ⟨?_, h.errors⟩, rfl⟩
        simp only
        omega
      · split at hn
        · rename_i hk
          obtain ⟨rfl, hpos⟩ := hk
          have hn := Option.some.inj hn
          have hge : (-1 : Int) > 0 ∨ st.inprogressConnections ≥ - -1 := by omega
          refine ⟨{ st with inprogressConnections := st.inprogressConnections + -1 }, ?_,
            ⟨?_, h.errors⟩, rfl⟩
          · simp only [EpStat.increment, gridAssert_pos hge, ok_bind, pure_eq_ok]
            rfl
          · simp only
            omega
        · exact absurd hn (by simp)
  | currentEpErrors => exact absurd hn (by simp [StatCall.attempts])
  | _ =>
      simp only [StatCall.attempts, Option.ite_none_right_eq_some, Option.some.injEq] at hn
      obtain ⟨rfl, rfl⟩ := hn
      exact ⟨_, rfl, ⟨h.inprogress, h.errors⟩, rfl⟩

theorem setError (h : st.Shares p n e) (errnum : Int) :
    ∃ st', st.setError errnum = .ok st' ∧
      st'.Shares p n (e + (StatCall.setError errnum).forgotten st.lastErrno) ∧
      st'.lastErrno = errnum := by
  have herrors := h.errors
  unfold EpStat.setError
  split
  · rename_i hsame
    have hnone : ¬(errnum = 0 ∧ st.lastErrno ≠ 0) := fun ⟨hz, hne⟩ => hne (hsame.trans hz)
    refine ⟨st, rfl, ⟨h.inprogress, ?_⟩, hsame⟩
    simp only [StatCall.forgotten, if_neg hnone]
    exact herrors
  · rename_i hother
    split
    · rename_i hzero
      have hne : errnum ≠ 0 := fun hz => hother (hzero.trans hz.symm)
      refine ⟨_, rfl, ⟨h.inprogress, ?_⟩, rfl⟩
      simp [errorWeight, StatCall.forgotten, hzero, hne] at herrors ⊢
      omega
    · rename_i hlast
      refine ⟨_, rfl, ⟨h.inprogress, ?_⟩, rfl⟩
      by_cases hz : errnum = 0
      · simp [errorWeight, StatCall.forgotten, hz, hlast] at herrors ⊢
        exact herrors
      · simp [errorWeight, StatCall.forgotten, hz, hlast] at herrors ⊢
        exact herrors

theorem clearError (h : st.Shares p n e) :
    ∃ st', st.clearError = .ok st' ∧ st'.Shares p n e ∧ st'.lastErrno = 0 := by
  have herrors := h.errors
  unfold EpStat.clearError
  split
  · rename_i hzero
    exact ⟨st, rfl, h, hzero⟩
  · rename_i hlast
    simp only [errorWeight, if_pos hlast] at herrors
    refine ⟨{ st with currentEpErrors := st.currentEpErrors + -1, lastErrno := 0 }, ?_,
      ⟨h.inprogress, ?_⟩, rfl⟩
    · have hge : (-1 : Int) > 0 ∨ st.currentEpErrors ≥ - -1 := by omega
      simp only [EpStat.increment, gridAssert_pos hge, ok_bind, pure_eq_ok]
      rfl
    · simp [errorWeight]
      omega

/-- A call that may follow finds the counters in order. -/
theorem call (h : st.Shares p n e) {c : StatCall} (hn : c.attempts n = some n') :
    ∃ st', st.call c = .ok st' ∧ st'.Shares p n' (e + c.forgotten st.lastErrno) ∧
      st'.lastErrno = c.errno st.lastErrno := by
  cases c with
  | increment name k => exact h.increment hn
  | setError errnum =>
      obtain rfl := Option.some.inj hn
      exact h.setError errnum
  | clearError =>
      obtain rfl := Option.some.inj hn
      exact h.clearError

/-- So do several calls. -/
theorem calls {cs : List StatCall} (h : st.Shares p n e)
    (hn : cs.foldlM StatCall.attempts n = some n') :
    ∃ st', st.calls cs = .ok st' ∧
      st'.Shares p n' (e + StatCall.allForgotten st.lastErrno cs) := by
  induction cs generalizing st n e with
  | nil =>
      obtain rfl := Option.some.inj hn
      exact ⟨st, rfl, h⟩
  | cons c cs ih =>
      rw [List.foldlM_cons] at hn
      obtain ⟨m, hm, hrest⟩ := Option.bind_eq_some_iff.mp hn
      obtain ⟨st₁, hcall, hshares, hlast⟩ := h.call hm
      obtain ⟨st', hcalls, hend⟩ := ih hshares hrest
      refine ⟨st', ?_, ?_⟩
      · simp only [EpStat.calls, hcall, ok_bind]
        exact hcalls
      · rw [hlast, Nat.add_assoc] at hend
        exact hend

end EpStat.Shares

/-! ## What a machine calls -/

/-- The calls of an endpoint that had `n` attempts under way and has `n'` now, one more if it
has abandoned an attempt, and the last error taken away if it reports none. -/
structure Tally (calls : List StatCall) (n n' : Nat) (abandons reports : Prop) : Prop where
  attempts : ∃ k, calls.foldlM StatCall.attempts n = some (n' + k) ∧ (k = 0 ↔ ¬abandons)
  forgotten : ∀ last, StatCall.allForgotten last calls = 0 ↔ ¬(last ≠ 0 ∧ reports)

namespace Tally

variable {calls : List StatCall} {n n' : Nat} {abandons reports : Prop}

/-- Calls that leave nothing behind. -/
theorem clean (hcalls : calls.foldlM StatCall.attempts n = some n')
    (hforgotten : ∀ last, StatCall.allForgotten last calls = 0) :
    Tally calls n n' False False where
  attempts := ⟨0, hcalls, by simp⟩
  forgotten last := by simp [hforgotten last]

theorem nil : Tally [] n n False False := clean rfl fun _ => rfl

/-- Calls and more calls. -/
theorem append {calls' : List StatCall} {n'' : Nat} (h : Tally calls n n' False reports)
    (h' : Tally calls' n' n'' False False) : Tally (calls ++ calls') n n'' False reports where
  attempts := by
    obtain ⟨k, hcalls, hk⟩ := h.attempts
    obtain ⟨k', hcalls', hk'⟩ := h'.attempts
    obtain rfl := hk.mpr not_false
    obtain rfl := hk'.mpr not_false
    refine ⟨0, ?_, by simp⟩
    rw [List.foldlM_append, hcalls]
    exact hcalls'
  forgotten last := by
    obtain ⟨last', hsum⟩ := StatCall.allForgotten_append last calls calls'
    rw [hsum, Nat.add_eq_zero_iff, h.forgotten last]
    exact and_iff_left ((h'.forgotten last').mpr (by simp))

/-- One of the counters that only grow. -/
theorem event {name : Stat} (hprogress : name ≠ .inprogressConnections)
    (herrors : name ≠ .currentEpErrors) :
    Tally [.increment name 1] n n False False := by
  refine clean ?_ fun _ => rfl
  cases name with
  | inprogressConnections => exact absurd rfl hprogress
  | currentEpErrors => exact absurd rfl herrors
  | _ => rfl

/-- An error is reported. -/
theorem error {cs : List StatCall} (errnum : Int) (h : Tally cs n n' False False) :
    Tally (.setError errnum :: cs) n n' False (errnum = 0) where
  attempts := by
    obtain ⟨k, hcs, hk⟩ := h.attempts
    exact ⟨k, hcs, hk⟩
  forgotten last := by
    have hrest := (h.forgotten errnum).mpr (by simp)
    rw [StatCall.allForgotten, StatCall.errno, hrest]
    by_cases hz : errnum = 0
    · by_cases hlast : last = 0
      · simp [StatCall.forgotten, hlast]
      · simp [StatCall.forgotten, hz, hlast]
    · simp [StatCall.forgotten, hz]

/-- The same said of other conditions. -/
theorem congr {abandons' reports' : Prop} (h : Tally calls n n' abandons reports)
    (habandons : abandons' ↔ abandons) (hreports : reports' ↔ reports) :
    Tally calls n n' abandons' reports' where
  attempts := by
    obtain ⟨k, hcalls, hk⟩ := h.attempts
    exact ⟨k, hcalls, hk.trans (not_congr habandons).symm⟩
  forgotten last := by
    rw [h.forgotten last, hreports]

end Tally

/-- Stopping a session that is not idle. -/
theorem tally_dropCalls (os : EpAnswers) (n : Nat) : Tally (dropCalls os) n n False False := by
  unfold dropCalls
  split
  · exact .nil
  · exact .event (by simp) (by simp)

namespace Machine

/-- The attempts under way. -/
def attempts (self : Machine) : Nat := if self.Connecting then 1 else 0

/-- The machine is stopped in its connecting state. -/
def Abandons (self : Machine) : MachineStep → Prop
  | .stop _ => self.Connecting
  | _ => False

end Machine

/-- The handler of a connecting endpoint reports an error whose number is 0. -/
def CycleState.ReportsNone (errnum : Int) (self : CycleState) (e : Event) : Prop :=
  self = .connecting ∧ e = .usock .error ∧ errnum = 0

/-- That of an accepted connection does. -/
def AcceptedState.ReportsNone (errnum : Int) (self : AcceptedState) (e : AcceptedInput) : Prop :=
  self = .accepting ∧ e = .listener .acceptError ∧ errnum = 0

namespace Connections

/-- One of the connections does. -/
def ReportsNone (self : Connections) (i : Nat) : ConnStep → Prop
  | .event e os => ∃ c, self i = some c ∧ c.ReportsNone os.errnum e
  | _ => False

end Connections

/-- A machine that is stopped leaves its attempt to the counters. -/
theorem Tally.stop {calls : List StatCall} {m : Machine}
    (h : Tally calls m.attempts m.attempts False False) :
    Tally calls m.attempts 0 m.Connecting False where
  attempts := by
    obtain ⟨k, hcalls, hk⟩ := h.attempts
    obtain rfl := hk.mpr not_false
    refine ⟨m.attempts, by simpa using hcalls, ?_⟩
    simp [Machine.attempts]
  forgotten := h.forgotten

/-- A step of an endpoint reports an error whose number is 0. -/
def Machine.ReportsNone : Machine → MachineStep → Prop
  | .ctcp state, .event e os => ∃ cycle, state = .cycle cycle ∧ cycle.ReportsNone os.errnum e
  | .cipc state, .event e os => ∃ cycle, state = .cycle cycle ∧ cycle.ReportsNone os.errnum e
  | .btcp conns, .conn i l => conns.ReportsNone i l
  | .bipc conns, .conn i l => conns.ReportsNone i l
  | _, _ => False

/-! ### Connecting over TCP and IPC -/

/-- What the shared handlers come to, which is never CONNECTING. -/
theorem CycleState.handler_tally {os : EpAnswers} {self : CycleState} {e : Event}
    {r : Option CycleState} {calls : List StatCall} (h : self.handler os e = .ok (r, calls)) :
    r ≠ some .connecting ∧
      Tally calls (if self = .connecting then 1 else 0) 0 False (self.ReportsNone os.errnum e) := by
  unfold CycleState.handler at h
  split at h
  · obtain ⟨rfl, rfl⟩ := Prod.mk.inj (Except.ok.inj h)
    refine ⟨by simp, (Tally.clean rfl fun _ => rfl).congr Iff.rfl ?_⟩
    simp [CycleState.ReportsNone]
  · obtain ⟨rfl, rfl⟩ := Prod.mk.inj (Except.ok.inj h)
    refine ⟨by simp, (Tally.error os.errnum (.clean rfl fun _ => rfl)).congr Iff.rfl ?_⟩
    simp [CycleState.ReportsNone]
  all_goals first
    | cases h; done
    | obtain ⟨rfl, rfl⟩ := Prod.mk.inj (Except.ok.inj h)
      refine ⟨by simp, (Tally.clean rfl fun _ => rfl).congr Iff.rfl ?_⟩
      simp [CycleState.ReportsNone]

variable {os : EpAnswers} {e : Event} {calls : List StatCall}

namespace CtcpState

variable {s s' : CtcpState}

theorem attempts_cycle (state : CycleState) :
    (Machine.ctcp (.cycle state)).attempts = if state = .connecting then 1 else 0 := by
  cases state <;> rfl

/-- An attempt may begin. -/
theorem startConnecting_tally (os : EpAnswers) :
    Tally (startConnecting os).2 0 (Machine.ctcp (startConnecting os).1).attempts False False := by
  unfold startConnecting
  split
  · exact .clean rfl fun _ => rfl
  · exact .nil

theorem handler_tally (h : s.handler os e = .ok (s', calls)) :
    Tally calls (Machine.ctcp s).attempts (Machine.ctcp s').attempts False
      (∃ cycle, s = .cycle cycle ∧ cycle.ReportsNone os.errnum e) := by
  unfold handler at h
  split at h
  case h_5 =>
    -- STOPPING_DNS, where the resolver has stopped
    split at h
    · obtain rfl := (Prod.mk.inj (Except.ok.inj h)).1
      obtain rfl := (Prod.mk.inj (Except.ok.inj h)).2
      exact (startConnecting_tally os).congr Iff.rfl (by simp)
    · obtain ⟨rfl, rfl⟩ := Prod.mk.inj (Except.ok.inj h)
      exact Tally.nil.congr Iff.rfl (by simp)
  case h_8 =>
    rename_i state _
    obtain ⟨⟨r, cs⟩, hcycle, hrest⟩ := bind_eq_ok_iff.mp h
    obtain ⟨hnext, htally⟩ := CycleState.handler_tally hcycle
    rw [attempts_cycle]
    cases r with
    | some next =>
        obtain ⟨rfl, rfl⟩ := Prod.mk.inj (Except.ok.inj hrest)
        rw [attempts_cycle, if_neg fun heq => hnext (congrArg some heq)]
        exact htally.congr Iff.rfl (by simp)
    | none =>
        obtain ⟨rfl, rfl⟩ := Prod.mk.inj (Except.ok.inj hrest)
        exact htally.congr Iff.rfl (by simp)
  all_goals first
    | cases h; done
    | obtain ⟨rfl, rfl⟩ := Prod.mk.inj (Except.ok.inj h)
      exact (Tally.clean rfl fun _ => rfl).congr Iff.rfl (by simp)

/-- No attempt is under way from STOPPING_STCP_FINAL on. -/
theorem attempts_shutdownStopping (os : EpAnswers) :
    (Machine.ctcp (shutdownStopping os)).attempts = 0 := by
  unfold shutdownStopping
  split <;> rfl

theorem attempts_shutdownStcp (os : EpAnswers) :
    (Machine.ctcp (shutdownStcp os)).attempts = 0 := by
  unfold shutdownStcp
  split
  · exact attempts_shutdownStopping os
  · rfl

theorem shutdown_attempts (h : s.shutdown os = .ok s') :
    (Machine.ctcp s).attempts = 0 ∧ (Machine.ctcp s').attempts = 0 := by
  unfold shutdown at h
  split at h
  · exact Except.ok.inj h ▸ ⟨rfl, attempts_shutdownStcp os⟩
  · exact Except.ok.inj h ▸ ⟨rfl, attempts_shutdownStopping os⟩
  · cases h

theorem feed_tally (h : s.feed os e = .ok (s', calls)) :
    Tally calls (Machine.ctcp s).attempts (Machine.ctcp s').attempts False
      (∃ cycle, s = .cycle cycle ∧ cycle.ReportsNone os.errnum e) := by
  unfold feed at h
  split at h
  · rename_i hstopping
    obtain ⟨s₁, hshutdown, hs₁⟩ := map_eq_ok h
    obtain ⟨rfl, rfl⟩ := Prod.mk.inj hs₁
    obtain ⟨hbefore, hafter⟩ := shutdown_attempts hshutdown
    rw [hbefore, hafter]
    refine Tally.nil.congr Iff.rfl ⟨?_, False.elim⟩
    rintro ⟨cycle, rfl, -⟩
    exact absurd hstopping (by simp [fsm])
  · exact handler_tally h

/-- A stop abandons the attempt that is under way. -/
theorem stop_tally (os : EpAnswers) (s : CtcpState) :
    Tally (s.stop os).2 (Machine.ctcp s).attempts (Machine.ctcp (s.stop os).1).attempts
      (Machine.ctcp s).Connecting False := by
  unfold stop
  split
  · rw [attempts_shutdownStcp]
    exact .stop (tally_dropCalls os _)
  · rename_i hrests
    have hnot : ¬(Machine.ctcp s).Connecting := by
      rintro rfl
      exact hrests rfl
    exact Tally.nil.congr (iff_false_intro hnot) Iff.rfl

end CtcpState

namespace CipcState

variable {s s' : CipcState}

theorem attempts_cycle (state : CycleState) :
    (Machine.cipc (.cycle state)).attempts = if state = .connecting then 1 else 0 := by
  cases state <;> rfl

/-- An attempt may begin. -/
theorem startConnecting_tally (os : EpAnswers) :
    Tally (startConnecting os).2 0 (Machine.cipc (startConnecting os).1).attempts False False := by
  unfold startConnecting
  split
  · exact .clean rfl fun _ => rfl
  · exact .nil

theorem handler_tally (h : s.handler os e = .ok (s', calls)) :
    Tally calls (Machine.cipc s).attempts (Machine.cipc s').attempts False
      (∃ cycle, s = .cycle cycle ∧ cycle.ReportsNone os.errnum e) := by
  cases s with
  | cycle state =>
      obtain ⟨⟨r, cs⟩, hcycle, hrest⟩ := bind_eq_ok_iff.mp h
      obtain ⟨hnext, htally⟩ := CycleState.handler_tally hcycle
      rw [attempts_cycle]
      cases r with
      | some next =>
          obtain ⟨rfl, rfl⟩ := Prod.mk.inj (Except.ok.inj hrest)
          rw [attempts_cycle, if_neg fun heq => hnext (congrArg some heq)]
          exact htally.congr Iff.rfl (by simp)
      | none =>
          obtain ⟨rfl, rfl⟩ := Prod.mk.inj (Except.ok.inj hrest)
          exact (htally.append (startConnecting_tally os)).congr Iff.rfl (by simp)
  | idle => cases h
  | stoppingSipcFinal => cases h
  | stopping => cases h

/-- No attempt is under way from STOPPING_SIPC_FINAL on. -/
theorem attempts_shutdownStopping (os : EpAnswers) :
    (Machine.cipc (shutdownStopping os)).attempts = 0 := by
  unfold shutdownStopping
  split <;> rfl

theorem attempts_shutdownSipc (os : EpAnswers) :
    (Machine.cipc (shutdownSipc os)).attempts = 0 := by
  unfold shutdownSipc
  split
  · exact attempts_shutdownStopping os
  · rfl

theorem shutdown_attempts (h : s.shutdown os = .ok s') :
    (Machine.cipc s).attempts = 0 ∧ (Machine.cipc s').attempts = 0 := by
  unfold shutdown at h
  split at h
  · exact Except.ok.inj h ▸ ⟨rfl, attempts_shutdownSipc os⟩
  · exact Except.ok.inj h ▸ ⟨rfl, attempts_shutdownStopping os⟩
  · cases h

theorem feed_tally (h : s.feed os e = .ok (s', calls)) :
    Tally calls (Machine.cipc s).attempts (Machine.cipc s').attempts False
      (∃ cycle, s = .cycle cycle ∧ cycle.ReportsNone os.errnum e) := by
  unfold feed at h
  split at h
  · rename_i hstopping
    obtain ⟨s₁, hshutdown, hs₁⟩ := map_eq_ok h
    obtain ⟨rfl, rfl⟩ := Prod.mk.inj hs₁
    obtain ⟨hbefore, hafter⟩ := shutdown_attempts hshutdown
    rw [hbefore, hafter]
    refine Tally.nil.congr Iff.rfl ⟨?_, False.elim⟩
    rintro ⟨cycle, rfl, -⟩
    exact absurd hstopping (by simp [fsm])
  · exact handler_tally h

/-- A stop abandons the attempt that is under way. -/
theorem stop_tally (os : EpAnswers) (s : CipcState) :
    Tally (s.stop os).2 (Machine.cipc s).attempts (Machine.cipc (s.stop os).1).attempts
      (Machine.cipc s).Connecting False := by
  unfold stop
  split
  · rw [attempts_shutdownSipc]
    exact .stop (tally_dropCalls os _)
  · rename_i hrests
    have hnot : ¬(Machine.cipc s).Connecting := by
      rintro rfl
      exact hrests rfl
    exact Tally.nil.congr (iff_false_intro hnot) Iff.rfl

end CipcState

/-! ### Connecting over inproc -/

namespace CinprocState

variable {s s' : CinprocState} {a : CinprocEvent}

theorem handler_tally (h : s.handler a = .ok (s', calls)) :
    Tally calls (Machine.cinproc s).attempts (Machine.cinproc s').attempts False False := by
  unfold handler at h
  split at h
  all_goals first
    | cases h; done
    | obtain ⟨rfl, rfl⟩ := Prod.mk.inj (Except.ok.inj h)
      exact .clean rfl fun _ => rfl

theorem attempts_shutdownStopping (os : EpAnswers) :
    (Machine.cinproc (shutdownStopping os)).attempts = 0 := by
  unfold shutdownStopping
  split <;> rfl

theorem feed_tally (h : s.feed os a = .ok (s', calls)) :
    Tally calls (Machine.cinproc s).attempts (Machine.cinproc s').attempts False False := by
  unfold feed at h
  split at h
  · obtain ⟨s₁, hshutdown, hs₁⟩ := map_eq_ok h
    obtain ⟨rfl, rfl⟩ := Prod.mk.inj hs₁
    unfold shutdown at hshutdown
    split at hshutdown
    · rw [← Except.ok.inj hshutdown, attempts_shutdownStopping]
      exact .nil
    · cases hshutdown
  · exact handler_tally h

/-- A stop abandons the attempt that is under way. -/
theorem stop_tally (os : EpAnswers) (s : CinprocState) :
    Tally (s.stop os).2 (Machine.cinproc s).attempts (Machine.cinproc (s.stop os).1).attempts
      (Machine.cinproc s).Connecting False := by
  unfold stop
  split
  · rw [attempts_shutdownStopping]
    exact .stop .nil
  · rename_i hrests
    have hnot : ¬(Machine.cinproc s).Connecting := by
      rintro rfl
      exact hrests rfl
    exact Tally.nil.congr (iff_false_intro hnot) Iff.rfl

end CinprocState

/-! ### Accepted connections -/

namespace AcceptedState

variable {s s' : AcceptedState} {a : AcceptedInput} {n : Nat}

theorem handler_tally (n : Nat) (h : s.handler os a = .ok (s', calls)) :
    Tally calls n n False (s.ReportsNone os.errnum a) := by
  unfold handler at h
  split at h
  case h_2 =>
    obtain ⟨rfl, rfl⟩ := Prod.mk.inj (Except.ok.inj h)
    exact (Tally.clean rfl fun _ => rfl).congr Iff.rfl (by simp [ReportsNone])
  case h_4 =>
    obtain ⟨rfl, rfl⟩ := Prod.mk.inj (Except.ok.inj h)
    refine (Tally.error os.errnum (.event (by simp) (by simp))).congr Iff.rfl ?_
    simp [ReportsNone]
  all_goals first
    | cases h; done
    | obtain ⟨rfl, rfl⟩ := Prod.mk.inj (Except.ok.inj h)
      exact (Tally.clean rfl fun _ => rfl).congr Iff.rfl (by simp [ReportsNone])

theorem feed_tally {unforeseen : Abort} (n : Nat)
    (h : s.feed unforeseen os a = .ok (s', calls)) :
    Tally calls n n False (s.ReportsNone os.errnum a) := by
  unfold feed at h
  split at h
  · rename_i hstopping
    obtain ⟨s₁, -, hs₁⟩ := map_eq_ok h
    obtain ⟨rfl, rfl⟩ := Prod.mk.inj hs₁
    refine Tally.nil.congr Iff.rfl ⟨?_, False.elim⟩
    rintro ⟨rfl, -⟩
    exact absurd hstopping (by simp [fsm])
  · exact handler_tally n h

theorem stop_tally (os : EpAnswers) (s : AcceptedState) (n : Nat) :
    Tally (s.stop os).2 n n False False := by
  unfold stop
  split
  · exact tally_dropCalls os n
  · exact .nil

end AcceptedState

/-- Connections have no attempts under way. -/
theorem Connections.next_tally {unforeseen : Abort} {conns conns' : Connections} {i : Nat}
    {l : ConnStep} (n : Nat) (h : conns.next unforeseen i l = .ok (conns', calls)) :
    Tally calls n n False (conns.ReportsNone i l) := by
  cases l with
  | start =>
      obtain ⟨rfl, rfl⟩ := Prod.mk.inj (Except.ok.inj h)
      exact .nil
  | event a os =>
      simp only [Connections.next] at h
      split at h
      · cases h
      · rename_i c hc
        obtain ⟨⟨c', cs⟩, hfeed, hset⟩ := map_eq_ok h
        obtain ⟨rfl, rfl⟩ := Prod.mk.inj hset
        exact (AcceptedState.feed_tally n hfeed).congr Iff.rfl (by simp [ReportsNone, hc])
  | stop os =>
      simp only [Connections.next] at h
      split at h
      · cases h
      · rename_i c hc
        obtain ⟨rfl, rfl⟩ := Prod.mk.inj (Except.ok.inj h)
        exact AcceptedState.stop_tally os c n
  | term =>
      obtain ⟨rfl, rfl⟩ := Prod.mk.inj (Except.ok.inj h)
      exact .nil

/-! ### All endpoints -/

/-- What a step of an endpoint calls. -/
theorem Machine.next_tally {m m' : Machine} {l : MachineStep} (h : m.next l = .ok (m', calls)) :
    Tally calls m.attempts m'.attempts (m.Abandons l) (m.ReportsNone l) := by
  unfold Machine.next at h
  split at h
  case h_1 =>
    obtain ⟨⟨s', cs⟩, hfeed, hr⟩ := map_eq_ok h
    obtain ⟨rfl, rfl⟩ := Prod.mk.inj hr
    exact CtcpState.feed_tally hfeed
  case h_2 state os =>
    obtain ⟨rfl, rfl⟩ := Prod.mk.inj (Except.ok.inj h)
    exact CtcpState.stop_tally os state
  case h_3 =>
    obtain ⟨⟨s', cs⟩, hfeed, hr⟩ := map_eq_ok h
    obtain ⟨rfl, rfl⟩ := Prod.mk.inj hr
    exact CipcState.feed_tally hfeed
  case h_4 state os =>
    obtain ⟨rfl, rfl⟩ := Prod.mk.inj (Except.ok.inj h)
    exact CipcState.stop_tally os state
  case h_5 =>
    obtain ⟨⟨s', cs⟩, hfeed, hr⟩ := map_eq_ok h
    obtain ⟨rfl, rfl⟩ := Prod.mk.inj hr
    exact CinprocState.feed_tally hfeed
  case h_6 state os =>
    obtain ⟨rfl, rfl⟩ := Prod.mk.inj (Except.ok.inj h)
    exact CinprocState.stop_tally os state
  case h_7 =>
    obtain ⟨⟨conns', cs⟩, hnext, hr⟩ := map_eq_ok h
    obtain ⟨rfl, rfl⟩ := Prod.mk.inj hr
    exact Connections.next_tally 0 hnext
  case h_8 =>
    obtain ⟨⟨conns', cs⟩, hnext, hr⟩ := map_eq_ok h
    obtain ⟨rfl, rfl⟩ := Prod.mk.inj hr
    exact Connections.next_tally 0 hnext
  case h_9 =>
    obtain ⟨rfl, rfl⟩ := Prod.mk.inj (Except.ok.inj h)
    exact .event (by simp) (by simp)
  case h_10 => cases h

/-- What the creation of an endpoint calls. -/
theorem Creation.machine_tally {c : Creation} {m : Machine} (h : c.machine = .ok (m, calls)) :
    Tally calls 0 m.attempts False False := by
  cases c with
  | cinproc =>
      rw [Creation.machine] at h
      obtain ⟨⟨s', cs⟩, hstart, hr⟩ := map_eq_ok h
      obtain ⟨rfl, rfl⟩ := Prod.mk.inj hr
      exact CinprocState.handler_tally hstart
  | cipc os =>
      obtain ⟨rfl, rfl⟩ := Prod.mk.inj (Except.ok.inj h)
      exact CipcState.startConnecting_tally os
  | _ =>
      obtain ⟨rfl, rfl⟩ := Prod.mk.inj (Except.ok.inj h)
      exact .nil

/-- A machine that has stopped has no attempt under way. -/
theorem Machine.Stopped.not_connecting {m : Machine} (h : m.Stopped) : ¬m.Connecting := by
  cases m with
  | ctcp state | cipc state | cinproc state =>
      obtain rfl : state = .idle := h
      simp [Machine.Connecting]
  | btcp conns => exact id
  | bipc conns => exact id
  | binproc => exact id

/-! ## The counters of a socket -/

/-- The attempt that an endpoint has under way. -/
def attemptOf : Option Endpoint → Nat
  | none => 0
  | some e => e.machine.attempts

/-- The error that an endpoint has. -/
def errorOf : Option Endpoint → Nat
  | none => 0
  | some e => errorWeight e.lastErrno

/-- A pipe that was added. -/
def pipeWeight (state : PipebaseState) : Nat := if state = .active then 1 else 0

namespace StatSock

/-- The counters are the sums of what endpoints and pipes come to, and `abandoned` attempts
and `forgotten` errors besides. -/
structure Inv (eps pipes : Finset Nat) (abandoned forgotten : Nat) (s : StatSock) : Prop where
  attempts : Covers eps attemptOf s.eps
  errors : Covers eps errorOf s.eps
  attached : Covers pipes pipeWeight s.pipes
  inprogress : s.statistics.inprogressConnections = total eps attemptOf s.eps + abandoned
  current : s.statistics.currentEpErrors = total eps errorOf s.eps + forgotten
  connections : s.currentConnections = total pipes pipeWeight s.pipes

/-- An attempt is abandoned: its endpoint is stopped in its connecting state. -/
def Abandons (s : StatSock) : Label → Prop
  | .machine i l => ∃ e, s.eps i = some e ∧ e.machine.Abandons l
  | _ => False

/-- An error is forgotten: its endpoint is terminated, or reports an error whose number
is 0. -/
def Forgets (s : StatSock) : Label → Prop
  | .machine i l => ∃ e, s.eps i = some e ∧ e.lastErrno ≠ 0 ∧ e.machine.ReportsNone l
  | .term i => ∃ e, s.eps i = some e ∧ e.lastErrno ≠ 0
  | _ => False

variable {s s' : StatSock} {eps pipes : Finset Nat} {a f : Nat}

/-- What the other endpoints and the past have counted. -/
theorem Inv.shares (h : s.Inv eps pipes a f) (i : Nat) {errno : Int}
    (herror : errorOf (s.eps i) = errorWeight errno) :
    ∃ p q, p + attemptOf (s.eps i) = total eps attemptOf s.eps + a ∧
      q + errorOf (s.eps i) = total eps errorOf s.eps + f ∧
      (s.statistics.load errno).Shares p (attemptOf (s.eps i)) q := by
  have hattempts := le_total h.attempts i
  have herrors := le_total h.errors i
  have hin := h.inprogress
  have hcur := h.current
  refine ⟨total eps attemptOf s.eps + a - attemptOf (s.eps i),
    total eps errorOf s.eps + f - errorOf (s.eps i), by omega, by omega, ?_, ?_⟩
  · simp only [EpStat.load]
    omega
  · simp only [EpStat.load, ← herror]
    omega

/-- An endpoint makes the calls of a step. -/
theorem Inv.count (h : s.Inv eps pipes a f) (i : Nat) {e : Endpoint} {m : Machine}
    {calls : List StatCall} {abandons reports : Prop}
    (herror : errorOf (s.eps i) = errorWeight e.lastErrno)
    (htally : Tally calls (attemptOf (s.eps i)) m.attempts abandons reports) :
    ∃ s' a' f', s.count i e (m, calls) = .ok s' ∧ s'.Inv (insert i eps) pipes a' f' ∧
      (a' = 0 ↔ a = 0 ∧ ¬abandons) ∧ (f' = 0 ↔ f = 0 ∧ ¬(e.lastErrno ≠ 0 ∧ reports)) := by
  obtain ⟨p, q, hp, hq, hshares⟩ := h.shares i herror
  obtain ⟨k, hcalls, hk⟩ := htally.attempts
  obtain ⟨st', hst', hend⟩ := hshares.calls hcalls
  let e' : Endpoint := { machine := m, lastErrno := st'.lastErrno }
  have hattempts := total_update h.attempts i (some e')
  have herrors := total_update h.errors i (some e')
  have hin := hend.inprogress
  have hcur : st'.currentEpErrors =
      (q + StatCall.allForgotten e.lastErrno calls : Nat) + errorWeight st'.lastErrno := hend.errors
  have hattempt' : attemptOf (some e') = m.attempts := rfl
  have herror' : errorOf (some e') = errorWeight st'.lastErrno := rfl
  refine ⟨{ s with statistics := st', eps := Function.update s.eps i (some e') },
    a + k, f + StatCall.allForgotten e.lastErrno calls, by simp only [StatSock.count, hst', e'],
    { attempts := h.attempts.update i _
      errors := h.errors.update i _
      attached := h.attached
      inprogress := ?_
      current := ?_
      connections := h.connections }, ?_, ?_⟩
  · simp only
    omega
  · simp only
    omega
  · rw [Nat.add_eq_zero_iff, hk]
  · rw [Nat.add_eq_zero_iff, htally.forgotten]

/-- An endpoint is terminated. -/
theorem Inv.term (h : s.Inv eps pipes a f) {i : Nat} {e : Endpoint} (hi : s.eps i = some e)
    (hstopped : e.machine.Stopped) :
    ({ s with eps := Function.update s.eps i none } : StatSock).Inv (insert i eps) pipes a
      (f + errorWeight e.lastErrno) := by
  have hattempt : attemptOf (s.eps i) = 0 := by
    rw [hi]
    exact if_neg hstopped.not_connecting
  have herror : errorOf (s.eps i) = errorWeight e.lastErrno := by
    rw [hi]
    rfl
  have hattempts := total_update h.attempts i none
  have herrors := total_update h.errors i none
  have hin := h.inprogress
  have hcur := h.current
  have hnone : attemptOf none = 0 := rfl
  have hnone' : errorOf none = 0 := rfl
  refine
    { attempts := h.attempts.update i none
      errors := h.errors.update i none
      attached := h.attached
      inprogress := ?_
      current := ?_
      connections := h.connections }
  · simp only
    omega
  · simp only
    omega

/-- The pipe counts that was added, and no other. -/
theorem Inv.setPipe (h : s.Inv eps pipes a f) (p : Nat) (state : PipebaseState) {n : Int}
    (hn : n + pipeWeight (s.pipes p) = s.currentConnections + pipeWeight state) :
    (({ s with currentConnections := n } : StatSock).setPipe p state).Inv eps (insert p pipes)
      a f := by
  have htotal := total_update h.attached p state
  have hcount := h.connections
  exact
    { attempts := h.attempts
      errors := h.errors
      attached := h.attached.update p state
      inprogress := h.inprogress
      current := h.current
      connections := by
        simp only [StatSock.setPipe]
        omega }

/-- `grid_pipebase_start` counts the pipe if the socket type takes it. -/
theorem Inv.startPipe (h : s.Inv eps pipes a f) {p : Nat} (hidle : s.pipes p = .idle) (rc : Int) :
    ∃ s', s.startPipe p rc = .ok s' ∧ s'.Inv eps (insert p pipes) a f := by
  have hold : pipeWeight (s.pipes p) = 0 := by rw [hidle]; rfl
  by_cases hrc : rc ≥ 0
  · have hnot : ¬rc < 0 := by omega
    refine ⟨({ s with currentConnections := s.currentConnections + 1 }).setPipe p .active, ?_, ?_⟩
    · simp only [StatSock.startPipe, if_pos hidle, add, if_pos hrc, countConnections, if_neg hnot]
      rfl
    · apply h.setPipe p .active
      rw [hold]
      simp [pipeWeight]
  · have hneg : rc < 0 := by omega
    refine ⟨s.setPipe p .failed, ?_, ?_⟩
    · simp only [StatSock.startPipe, if_pos hidle, add, if_neg hrc, ok_bind, if_pos hneg,
        StatSock.setPipe, Function.update_idem]
      rfl
    · apply h.setPipe p .failed
      rw [hold]
      simp [pipeWeight]

/-- `grid_pipebase_stop` takes it back. -/
theorem Inv.stopPipe (h : s.Inv eps pipes a f) (p : Nat) :
    ∃ s', s.stopPipe p = .ok s' ∧ s'.Inv eps (insert p pipes) a f := by
  by_cases hactive : s.pipes p = .active
  · have hone : pipeWeight (s.pipes p) = 1 := by rw [hactive]; rfl
    have hle := le_total h.attached p
    have hcount := h.connections
    have hok : ((-1 : Int) > 0 ∨ s.currentConnections ≥ - -1) ∧ (-1 : Int) < intMax ∧
        (-1 : Int) > -intMax := ⟨by omega, by decide, by decide⟩
    refine ⟨({ s with currentConnections := s.currentConnections + -1 }).setPipe p .idle, ?_, ?_⟩
    · simp only [StatSock.stopPipe, if_pos hactive, rm, countConnections, if_pos hok]
      rfl
    · apply h.setPipe p .idle
      rw [hone]
      simp [pipeWeight]
  · have hzero : pipeWeight (s.pipes p) = 0 := if_neg hactive
    refine ⟨s.setPipe p .idle, ?_, ?_⟩
    · simp only [StatSock.stopPipe, if_neg hactive]
      rfl
    · apply h.setPipe p .idle
      rw [hzero]
      simp [pipeWeight]

/-- A step that fails does so by a check of an endpoint, and any other keeps the sums. -/
theorem Inv.next (h : s.Inv eps pipes a f) {l : Label} (henabled : s.Enabled l) :
    (∃ e, s.next l = .error (.machine e)) ∨
      ∃ s' eps' pipes' a' f', s.next l = .ok s' ∧ s'.Inv eps' pipes' a' f' ∧
        (a' = 0 ↔ a = 0 ∧ ¬s.Abandons l) ∧ (f' = 0 ↔ f = 0 ∧ ¬s.Forgets l) := by
  cases l with
  | create i c =>
      have hnone : s.eps i = none := henabled
      cases hc : c.machine with
      | error e => exact Or.inl ⟨e, by simp only [StatSock.next, hc]⟩
      | ok r =>
          obtain ⟨m, calls⟩ := r
          obtain ⟨s', a', f', hcount, hinv, ha, hf⟩ :=
            h.count i (e := { machine := m }) (by rw [hnone]; rfl)
              (by rw [hnone]; exact Creation.machine_tally hc)
          refine Or.inr ⟨s', _, _, a', f', ?_, hinv, ?_, ?_⟩
          · simp only [StatSock.next, hc]
            exact hcount
          · rw [ha]
            simp [Abandons]
          · rw [hf]
            simp [Forgets]
  | machine i l =>
      obtain ⟨e, hi, -⟩ := henabled
      cases hm : e.machine.next l with
      | error fault => exact Or.inl ⟨fault, by simp only [StatSock.next, hi, hm]⟩
      | ok r =>
          obtain ⟨m, calls⟩ := r
          obtain ⟨s', a', f', hcount, hinv, ha, hf⟩ :=
            h.count i (e := e) (by rw [hi]; rfl) (by rw [hi]; exact Machine.next_tally hm)
          refine Or.inr ⟨s', _, _, a', f', ?_, hinv, ?_, ?_⟩
          · simp only [StatSock.next, hi, hm]
            exact hcount
          · rw [ha]
            simp [Abandons, hi]
          · rw [hf]
            simp [Forgets, hi]
  | term i =>
      obtain ⟨e, hi, hstopped⟩ := henabled
      refine Or.inr ⟨_, _, _, a, f + errorWeight e.lastErrno, rfl, h.term hi hstopped, ?_, ?_⟩
      · simp [Abandons]
      · simp [Forgets, hi, errorWeight]
  | startPipe p rc =>
      obtain ⟨s', hstart, hinv⟩ := h.startPipe henabled rc
      exact Or.inr ⟨s', _, _, a, f, hstart, hinv, by simp [Abandons], by simp [Forgets]⟩
  | stopPipe p =>
      obtain ⟨s', hstop, hinv⟩ := h.stopPipe p
      exact Or.inr ⟨s', _, _, a, f, hstop, hinv, by simp [Abandons], by simp [Forgets]⟩

/-- What a run adds to them. -/
theorem Inv.path {steps : List (StatSock × Label)} (h : s.Inv eps pipes a f)
    (hpath : system.Path s steps s') :
    ∃ eps' pipes' a' f', s'.Inv eps' pipes' a' f' ∧
      (a' = 0 ↔ a = 0 ∧ ∀ p ∈ steps, ¬p.1.Abandons p.2) ∧
      (f' = 0 ↔ f = 0 ∧ ∀ p ∈ steps, ¬p.1.Forgets p.2) := by
  induction hpath generalizing eps pipes a f with
  | nil s => exact ⟨eps, pipes, a, f, h, by simp, by simp⟩
  | cons hstep _ ih =>
      rcases h.next hstep.1 with ⟨e, herror⟩ | ⟨s₁, eps₁, pipes₁, a₁, f₁, hnext, hinv, ha, hf⟩
      · exact absurd (hstep.2.symm.trans herror) (by simp)
      · obtain rfl := Except.ok.inj (hstep.2.symm.trans hnext)
        obtain ⟨eps', pipes', a', f', hinv', ha', hf'⟩ := ih hinv
        refine ⟨eps', pipes', a', f', hinv', ?_, ?_⟩
        · rw [ha', ha, List.forall_mem_cons, and_assoc]
        · rw [hf', hf, List.forall_mem_cons, and_assoc]

theorem inv_start : ({} : StatSock).Inv ∅ ∅ 0 0 where
  attempts _ _ := rfl
  errors _ _ := rfl
  attached _ _ := rfl
  inprogress := rfl
  current := rfl
  connections := rfl

/-! ## Truthful statistics -/

/-- The statistics say how many pipes are attached, how many endpoints are in their
connecting state and how many have an error. -/
structure Truthful (s : StatSock) : Prop where
  connections : s.currentConnections = {p | s.pipes p = .active}.ncard
  inprogress : s.statistics.inprogressConnections =
    {i | ∃ e, s.eps i = some e ∧ e.machine.Connecting}.ncard
  errors : s.statistics.currentEpErrors = {i | ∃ e, s.eps i = some e ∧ e.lastErrno ≠ 0}.ncard

/-- A sum over endpoints counts those of a kind. -/
theorem ncard_eq_total_eps {weight : Option Endpoint → Nat} {kind : Endpoint → Prop}
    (hnone : weight none = 0) (hin : ∀ e, kind e → weight (some e) = 1)
    (hout : ∀ e, ¬kind e → weight (some e) = 0) {ep : Nat → Option Endpoint}
    (hcovers : Covers eps weight ep) :
    {i | ∃ e, ep i = some e ∧ kind e}.ncard = total eps weight ep := by
  classical
  have hweight : weight = fun o => if ∃ e, o = some e ∧ kind e then 1 else 0 := by
    funext o
    cases o with
    | none => simp [hnone]
    | some e =>
        by_cases he : kind e
        · simp [hin e he, he]
        · simp [hout e he, he]
  subst hweight
  exact ncard_eq_total hcovers

theorem Inv.truthful_iff (h : s.Inv eps pipes a f) : s.Truthful ↔ a = 0 ∧ f = 0 := by
  have hpipes : {p | s.pipes p = .active}.ncard = total pipes pipeWeight s.pipes :=
    ncard_eq_total h.attached
  have hattempts : {i | ∃ e, s.eps i = some e ∧ e.machine.Connecting}.ncard =
      total eps attemptOf s.eps :=
    ncard_eq_total_eps rfl (fun _ he => if_pos he) (fun _ he => if_neg he) h.attempts
  have herrors : {i | ∃ e, s.eps i = some e ∧ e.lastErrno ≠ 0}.ncard =
      total eps errorOf s.eps :=
    ncard_eq_total_eps rfl (fun _ he => if_pos he) (fun _ he => if_neg he) h.errors
  have hin := h.inprogress
  have hcur := h.current
  constructor
  · intro htruthful
    have hin' := htruthful.inprogress
    have hcur' := htruthful.errors
    rw [hattempts] at hin'
    rw [herrors] at hcur'
    omega
  · rintro ⟨rfl, rfl⟩
    exact
      { connections := by rw [hpipes]; exact h.connections
        inprogress := by rw [hattempts]; omega
        errors := by rw [herrors]; omega }

/-- After a run the statistics are truthful if and only if in none of its steps an endpoint
was stopped in its connecting state, an endpoint with an error was terminated, or one with
an error reported an error whose number is 0.  An assertion of the counters never fails. -/
theorem statistics_truthful_iff {s₀ s : StatSock} {steps : List (StatSock × Label)}
    (hinit : system.init s₀)
    (hpath : system.Path s₀ steps s) :
    (s.Truthful ↔ ∀ p ∈ steps, ¬p.1.Abandons p.2 ∧ ¬p.1.Forgets p.2) ∧
      ∀ l, s.Enabled l → s.next l ≠ .error .counter := by
  obtain rfl : s₀ = {} := hinit
  obtain ⟨eps, pipes, a, f, hinv, ha, hf⟩ := inv_start.path hpath
  constructor
  · rw [hinv.truthful_iff, ha, hf]
    simp [forall_and]
  · intro l henabled hfault
    rcases hinv.next henabled with ⟨e, herror⟩ | ⟨s', _, _, _, _, hok, -⟩
    · exact absurd (hfault.symm.trans herror) (by simp)
    · exact absurd (hfault.symm.trans hok) (by simp)

/-- A socket with one TCP endpoint that has no error. -/
def single (state : CtcpState) (n : Int) : StatSock where
  statistics := { inprogressConnections := n }
  eps := Function.update (fun _ => none) 0 (some { machine := .ctcp state })

theorem single_step {state state' : CtcpState} {n n' : Int} {l : MachineStep}
    {calls : List StatCall} (henabled : (Machine.ctcp state).Enabled l)
    (hnext : (Machine.ctcp state).next l = .ok (.ctcp state', calls))
    (hcalls : ({ inprogressConnections := n } : EpStat).calls calls =
      .ok { inprogressConnections := n' }) :
    system.step (single state n) (.machine 0 l) (single state' n') := by
  have hep : (single state n).eps 0 = some { machine := .ctcp state } := rfl
  refine ⟨⟨_, hep, henabled⟩, ?_⟩
  simp only [StatSock.next, hep, hnext, count]
  simp only [single, EpStat.load, hcalls, Function.update_idem]

/-- The endpoint is resolved, connects and is stopped before it is connected. -/
theorem path_stopped : ∃ steps, system.Path {} steps (single .idle 1) := by
  have hcreate : system.step {} (.create 0 .ctcp) (single .resolving 0) := ⟨rfl, rfl⟩
  have hdone : system.step (single .resolving 0) (.machine 0 (.event (.dns .done) {}))
      (single .stoppingDns 0) := single_step trivial rfl rfl
  have hconnect : system.step (single .stoppingDns 0) (.machine 0 (.event (.dns .stopped) {}))
      (single (.cycle .connecting) 1) := single_step trivial rfl rfl
  have hstop : system.step (single (.cycle .connecting) 1) (.machine 0 (.stop {}))
      (single .idle 1) := single_step trivial rfl rfl
  exact ⟨_, .cons hcreate (.cons hdone (.cons hconnect (.cons hstop (.nil _))))⟩

/-- That run leaves an attempt counted. -/
theorem statistics_truthful_stopped :
    ∃ steps : List (StatSock × Label),
      ((single .idle 1).Truthful ↔ ∀ p ∈ steps, ¬p.1.Abandons p.2 ∧ ¬p.1.Forgets p.2) ∧
      ∀ l, (single .idle 1).Enabled l → (single .idle 1).next l ≠ .error .counter := by
  obtain ⟨steps, hpath⟩ := path_stopped
  exact ⟨steps, statistics_truthful_iff rfl hpath⟩

/-- The number of attempts in progress is wrong once an endpoint was stopped in its connecting
state. -/
theorem not_truthful :
    ¬∀ s, system.Reachable s → s.Truthful ∧ ∀ l, s.Enabled l → s.next l ≠ .error .counter := by
  intro hall
  obtain ⟨steps, hpath⟩ := path_stopped
  obtain ⟨htruthful, -⟩ := hall _ (System.Reachable.path (.start rfl) hpath)
  have hempty : {i | ∃ e, (single .idle 1).eps i = some e ∧ e.machine.Connecting} = ∅ := by
    apply Set.eq_empty_of_forall_notMem
    rintro i ⟨e, he, hconnecting⟩
    by_cases hi : i = 0
    · subst hi
      obtain rfl := Option.some.inj he
      simp [Machine.Connecting] at hconnecting
    · simp [single, Function.update_of_ne hi] at he
  have hin := htruthful.inprogress
  rw [hempty, Set.ncard_empty] at hin
  exact absurd hin (by decide)

end StatSock

end GridMq.Transports
