import GridMq.Transports.BtcpRuns

set_option autoImplicit false

/-!
# How a bound endpoint accepts connections (`src/aio/usock.c`)

The listening usock and the usock that is to take the next connection know each other as long as
that is pending, and each descriptor comes to one usock.
-/

namespace GridMq.Aio

/-- A connection is waited for: ACCEPTING, ACCEPTING_ERROR, CANCELLING. -/
def Listener.InProgress (l : Listener) : Prop :=
  l.usock.state = .accepting ∨ l.usock.state = .acceptingError ∨ l.usock.state = .cancelling

/-- It waits for its connection: BEING_ACCEPTED, STOPPING_ACCEPT. -/
def AcceptedUsock.InProgress (a : AcceptedUsock) : Prop :=
  a.usock.state = .beingAccepted ∨ a.usock.state = .stoppingAccept

variable {l : Listener} {a : AcceptedUsock}

theorem Listener.not_inProgress {state : UsockState} (h : l.usock.state = state)
    (hne : state ≠ .accepting ∧ state ≠ .acceptingError ∧ state ≠ .cancelling) :
    ¬l.InProgress := by
  rintro (hstate | hstate | hstate)
  · exact hne.1 (h.symm.trans hstate)
  · exact hne.2.1 (h.symm.trans hstate)
  · exact hne.2.2 (h.symm.trans hstate)

theorem AcceptedUsock.not_inProgress {state : UsockState} (h : a.usock.state = state)
    (hne : state ≠ .beingAccepted ∧ state ≠ .stoppingAccept) : ¬a.InProgress := by
  rintro (hstate | hstate)
  · exact hne.1 (h.symm.trans hstate)
  · exact hne.2 (h.symm.trans hstate)

theorem AcceptedUsock.not_inProgress_held (h : a.usock.Held) : ¬a.InProgress := by
  rcases h with h | h | h
  · exact not_inProgress h.state (by simp)
  · exact not_inProgress h.state (by simp)
  · exact not_inProgress h.state (by simp)

end GridMq.Aio

namespace GridMq.Transports

open GridMq.Aio GridMq.Library

namespace Accepted

variable {c : Accepted} {i : Nat} {q : List BoundEvent}

/-- A connection that was accepted is not waited for. -/
theorem SessionLeaves.not_inProgress (h : c.SessionLeaves i q) : ¬c.usock.InProgress :=
  AcceptedUsock.not_inProgress_held h.usock

theorem UsockLeaves.not_inProgress (h : c.UsockLeaves i q) : ¬c.usock.InProgress := by
  rcases h.ends with ⟨hclosing, -⟩ | ⟨hoff, -⟩
  · exact AcceptedUsock.not_inProgress hclosing.state (by simp)
  · exact AcceptedUsock.not_inProgress hoff.state (by simp)

theorem Rests.not_inProgress (h : c.Rests) : ¬c.usock.InProgress :=
  AcceptedUsock.not_inProgress h.usock.state (by simp)

theorem Runs.not_inProgress (h : c.Runs i q) : ¬c.usock.InProgress := by
  obtain ⟨-, ⟨-, h⟩ | ⟨-, h⟩ | ⟨-, h⟩ | ⟨-, h, -⟩⟩ := h
  · exact AcceptedUsock.not_inProgress_held h.usock
  · exact h.not_inProgress
  · exact h.not_inProgress
  · exact h.not_inProgress

theorem Ends.not_inProgress (h : c.Ends i q) : ¬c.usock.InProgress := by
  rcases h with ⟨-, ⟨-, h⟩ | ⟨-, h⟩⟩ | h
  · exact h.not_inProgress
  · exact h.not_inProgress
  · exact h.rests.not_inProgress

theorem Tended.not_inProgress (h : c.Tended i q) : ¬c.usock.InProgress := by
  rcases h with h | h
  · exact h.not_inProgress
  · exact h.rests.not_inProgress

end Accepted

namespace Bound

variable {α ρ : Type} {s : Bound α} {T : ListenTransport α ρ} {l : Label α ρ} {a : Nat}
  {c : Accepted}

/-- While a connection is waited for the two usocks refer to each other. -/
structure Coupled (s : Bound α) : Prop where
  listener : s.usock.InProgress → ∃ i c, s.usock.asock = some i ∧ s.conns i = some c ∧
    c.usock.InProgress ∧ c.usock.asock = true
  accepted : ∀ i c, s.conns i = some c → c.usock.InProgress →
    s.usock.InProgress ∧ s.usock.asock = some i ∧ c.usock.asock = true

/-- No connection is waited for. -/
theorem Coupled.of_none (hl : ¬s.usock.InProgress)
    (hconns : ∀ i c, s.conns i = some c → ¬c.usock.InProgress) : s.Coupled :=
  ⟨fun h => absurd h hl, fun i c hc h => absurd h (hconns i c hc)⟩

/-- One is, and it is the only one. -/
theorem Coupled.of_pair (hl : s.usock.InProgress) (hasock : s.usock.asock = some a)
    (hc : s.conns a = some c) (hprogress : c.usock.InProgress) (hback : c.usock.asock = true)
    (hothers : ∀ i d, i ≠ a → s.conns i = some d → ¬d.usock.InProgress) : s.Coupled := by
  refine ⟨fun _ => ⟨a, c, hasock, hc, hprogress, hback⟩, fun i d hd h => ?_⟩
  by_cases hia : i = a
  · subst hia
    obtain rfl : c = d := Option.some.inj (hc.symm.trans hd)
    exact ⟨hl, hasock, hback⟩
  · exact absurd h (hothers i d hia hd)

theorem Core.coupled_of_alone (h : s.Core) (halone : s.Alone) (hdeaf : s.Deaf) : s.Coupled := by
  apply Coupled.of_none
  · exact Listener.not_inProgress hdeaf.usock.usock.state (by simp)
  · intro i c hc
    exact absurd ((h.none_of_alone halone i).symm.trans hc) (by simp)

/-- The connections but the one being accepted. -/
theorem Core.others (h : s.Core) {P : Accepted → Nat → List BoundEvent → Prop} (hkids : s.Kids P)
    (hP : ∀ c i q, P c i q → ¬c.usock.InProgress) {i : Nat} (hi : s.atcp ≠ some i)
    (hc : s.conns i = some c) : ¬c.usock.InProgress := by
  have hlist : i ∈ s.atcps := ((h.allocated i).mp (by simp [hc])).resolve_right hi
  obtain ⟨d, hd, hPd⟩ := hkids i hlist
  obtain rfl : d = c := Option.some.inj (hd.symm.trans hc)
  exact hP _ _ _ hPd

/-- Nor is the one that was being accepted waited for. -/
theorem Core.coupled_of_kids (h : s.Core) {P : Accepted → Nat → List BoundEvent → Prop}
    (hkids : s.Kids P) (hP : ∀ c i q, P c i q → ¬c.usock.InProgress)
    (hl : ¬s.usock.InProgress)
    (hcur : ∀ i c, s.atcp = some i → s.conns i = some c → ¬c.usock.InProgress) : s.Coupled := by
  apply Coupled.of_none hl
  intro i c hc
  by_cases hi : s.atcp = some i
  · exact hcur i c hi hc
  · exact h.others hkids hP hi hc

theorem Core.coupled_of_active (h : s.Core) (hp : s.Active a) : s.Coupled := by
  obtain ⟨c, hc, -, hawaits | hserved⟩ := hp.child
  · have hothers : ∀ i d, i ≠ a → s.conns i = some d → ¬d.usock.InProgress := by
      intro i d hia hd
      refine h.others hp.kids (fun c i q hq => hq.not_inProgress) ?_ hd
      exact fun heq => hia (Option.some.inj (heq.symm.trans hp.atcp))
    rcases hawaits.stage with ⟨hpending, hwaiting, -⟩ | ⟨hpending, hfailed, -⟩ | ⟨htaken, hlistening, -⟩
    · exact .of_pair (Or.inl hwaiting.state) hwaiting.asock hc (Or.inl hpending.state)
        hpending.asock hothers
    · exact .of_pair (Or.inr (Or.inl hfailed.state)) hfailed.asock hc (Or.inl hpending.state)
        hpending.asock hothers
    · refine h.coupled_of_kids hp.kids (fun c i q hq => hq.not_inProgress)
        (Listener.not_inProgress hlistening.state (by simp)) fun i d hi hd => ?_
      obtain rfl : a = i := Option.some.inj (hp.atcp.symm.trans hi)
      obtain rfl : c = d := Option.some.inj (hc.symm.trans hd)
      exact AcceptedUsock.not_inProgress htaken.state (by simp)
  · refine h.coupled_of_kids hp.kids (fun c i q hq => hq.not_inProgress)
      (Listener.not_inProgress hserved.usock.state (by simp)) fun i d hi hd => ?_
    obtain rfl : a = i := Option.some.inj (hp.atcp.symm.trans hi)
    obtain rfl : c = d := Option.some.inj (hc.symm.trans hd)
    obtain ⟨q, -, hserves⟩ := hserved.serves
    exact AcceptedUsock.not_inProgress_held hserves.usock

/-- The two usocks refer to each other in every state that is reached. -/
theorem Inv.coupled (h : s.Inv) : s.Coupled := by
  have hnone : ∀ {P : Accepted → Nat → List BoundEvent → Prop}, s.atcp = none → s.Kids P →
      (∀ c i q, P c i q → ¬c.usock.InProgress) → s.Deaf → s.Coupled := by
    intro P hatcp hkids hP hdeaf
    refine h.core.coupled_of_kids hkids hP
      (Listener.not_inProgress hdeaf.usock.usock.state (by simp)) fun i c hi => ?_
    exact absurd (hatcp.symm.trans hi) (by simp)
  cases h.phase with
  | new hp => exact h.core.coupled_of_alone hp.alone hp.deaf
  | waiting q hp => exact h.core.coupled_of_alone hp.alone hp.deaf
  | closing hp => exact h.core.coupled_of_alone hp.alone hp.deaf
  | stoppingBackoff q hp => exact h.core.coupled_of_alone hp.alone hp.deaf
  | stoppingRetry q hp => exact h.core.coupled_of_alone hp.alone hp.deaf
  | finished hp => exact h.core.coupled_of_alone hp.alone hp.deaf
  | active a hp => exact h.core.coupled_of_active hp
  | stoppingUsock hp => exact hnone hp.atcp hp.kids (fun c i q hq => hq.not_inProgress) hp.deaf
  | stoppingAtcps hp => exact hnone hp.atcp hp.kids (fun c i q hq => hq.not_inProgress) hp.deaf
  | stoppingAtcp a hp =>
      obtain ⟨c, hc, -, -, -, -, -, hcancelled⟩ := hp.child
      refine .of_pair (Or.inr (Or.inr hp.usock.state)) hp.usock.asock hc
        (Or.inr hcancelled.state) hcancelled.asock fun i d hia hd => ?_
      refine h.core.others hp.kids (fun c i q hq => hq.not_inProgress) ?_ hd
      exact fun heq => hia (Option.some.inj (heq.symm.trans hp.atcp))
  | usockStopped a hp =>
      obtain ⟨c, hc, -, -, -, -, -, hoff, -⟩ := hp.child
      refine h.core.coupled_of_kids hp.kids (fun c i q hq => hq.not_inProgress)
        (Listener.not_inProgress hp.usock.state (by simp)) fun i d hi hd => ?_
      obtain rfl : a = i := Option.some.inj (hp.atcp.symm.trans hi)
      obtain rfl : c = d := Option.some.inj (hc.symm.trans hd)
      exact AcceptedUsock.not_inProgress hoff.state (by simp)
  | atcpStopped a hp =>
      obtain ⟨c, hc, -, -, hrests, -⟩ := hp.child
      refine h.core.coupled_of_kids hp.kids (fun c i q hq => hq.not_inProgress)
        (Listener.not_inProgress hp.usock.state (by simp)) fun i d hi hd => ?_
      obtain rfl : a = i := Option.some.inj (hp.atcp.symm.trans hi)
      obtain rfl : c = d := Option.some.inj (hc.symm.trans hd)
      exact hrests.not_inProgress

/-! ## Every run -/

/-- What accepting has to be, as far as the steps meet a condition. -/
structure Accepts (T : ListenTransport α ρ) (G : Label α ρ → Prop) (s : Bound α) : Prop where
  /-- no check of the functions that accept fails -/
  safe : ∀ l e, G l → s.Enabled l → s.next T l = .error e → e.site ≠ .accept
  /-- each descriptor that `accept` has returned was given to a usock -/
  given : s.given.map Prod.fst = s.accepted
  /-- no usock was given two -/
  once : (s.given.map Prod.snd).Nodup
  coupled : s.Coupled

/-- As long as `accept` answers as its callers expect, accepting goes on. -/
theorem accepting_goes_on {minivl maxivl : Int}
    (h : ((system T minivl maxivl).restrict fun _ l => l.Foreseen).Reachable s) :
    s.Accepts T Label.Foreseen := by
  have hinv := inv_of_reachable h.of_restrict
  refine ⟨fun l e hl hen he => ?_, hinv.core.matched, hinv.core.once, hinv.coupled⟩
  rcases fares (T := T) hinv hen with ⟨s', hs', -⟩ | ⟨e', he', hfails⟩
  · exact absurd (hs'.symm.trans he) (by simp)
  · obtain rfl : e' = e := Except.error.inj (he'.symm.trans he)
    cases hfails with
    | address os _ _ _ => simp
    | prepare os _ _ _ => simp
    | retry os _ _ _ => simp
    | accept _ hnot => exact absurd hl hnot
    | term _ => simp

/-- A connection is taken once the listening usock is readable. -/
theorem accepting_goes_on_taken : ∃ s : Bound Bool,
    ((system anywhere 100 100).restrict fun _ l => l.Foreseen).Reachable s ∧
      s.given = [(7, 0)] ∧ s.Accepts anywhere Label.Foreseen := by
  have hinit : ((system anywhere 100 100).restrict fun _ l => l.Foreseen).Reachable (new true) :=
    .start ⟨true, rfl⟩
  have hcreated := hinit.step (l := (.create { prep := () } : Label Bool Unit))
    ⟨by simp [Label.Foreseen], ⟨rfl, rfl⟩, rfl⟩
  have hwaits := hcreated.step (l := (.listenerTask : Label Bool Unit))
    ⟨trivial, ⟨rfl, List.cons_ne_nil UsockTask.accept []⟩, rfl⟩
  have htaken := hwaits.step (l := (.listenerIn (.fd 7) : Label Bool Unit))
    ⟨by simp [Label.Foreseen], ⟨rfl, rfl⟩, rfl⟩
  exact ⟨_, htaken, rfl, accepting_goes_on htaken⟩

/-- `accept` fails with an error that its callers do not expect. -/
theorem not_accepting_goes_on : ¬∀ s : Bound Bool, (system anywhere 100 100).Reachable s →
    s.Accepts anywhere fun _ => True := by
  intro hall
  let l : Label Bool Unit := .create { prep := (), accept := .error .other }
  have hinit : (system anywhere 100 100).Reachable (new true) := .start ⟨true, rfl⟩
  have hen : (new true).Enabled l := ⟨rfl, rfl⟩
  have hfails : (new true).next anywhere l = .error ⟨.accept, .errnum⟩ := rfl
  exact (hall _ hinit).safe l _ trivial hen hfails rfl

end Bound

end GridMq.Transports
