import GridMq.Transports.BoundTransports

set_option autoImplicit false

/-!
# Runs of a bound TCP endpoint

How its shutdown ends, and when the address it was created with can be parsed again.
-/

namespace GridMq.Transports

open GridMq.Aio GridMq.Library

namespace Bound

variable {α ρ : Type} {s s' : Bound α} {T : ListenTransport α ρ} {l : Label α ρ}

/-! ## The shutdown -/

/-- In a run in which no connection is terminated of which tasks are left, the shutdown is
orderly. -/
theorem shutdown_orderly {minivl maxivl : Int}
    (h : ((system T minivl maxivl).restrict fun s l => ¬s.Leaves l).Reachable s)
    (os : ListenAnswers ρ) : s.Orderly T minivl maxivl fun s l => ¬s.Leaves l :=
  Inv.orderly (fun _ _ hl => hl) os (inv_of_reachable h.of_restrict)

/-- `tcp://*:5555`. -/
def anywhere : ListenTransport Bool Unit := btcp loopbackOnly [42, 58, 53, 53, 53, 53]

/-- A new endpoint with a socket option. -/
def new (option : Bool) : Bound Bool := { option := option, retry := { minivl := 100, maxivl := 100 } }

/-- An endpoint listens and is asked to stop. -/
theorem shutdown_orderly_listening : ∃ s : Bound Bool,
    ((system anywhere 100 100).restrict fun s l => ¬s.Leaves l).Reachable s ∧
      s.state = .stoppingAtcp ∧ s.Orderly anywhere 100 100 fun s l => ¬s.Leaves l := by
  have hinit : ((system anywhere 100 100).restrict fun s l => ¬s.Leaves l).Reachable (new true) :=
    .start ⟨true, rfl⟩
  have hcreated := hinit.step (l := (.create { prep := () } : Label Bool Unit))
    ⟨id, ⟨rfl, rfl⟩, rfl⟩
  have hstopped := hcreated.step (l := (.stop { prep := () } : Label Bool Unit))
    ⟨id, ⟨rfl, rfl⟩, rfl⟩
  exact ⟨_, hstopped, rfl, shutdown_orderly hstopped { prep := () }⟩

/-- A step that is enabled and does not fail. -/
def tryNext (T : ListenTransport Bool Unit) (s : Bound Bool) (l : Label Bool Unit) :
    Option (Bound Bool) :=
  System.tryStep (s.Enabled l) (s.next T l)

/-- How a step fails. -/
def failure (T : ListenTransport Bool Unit) (s : Bound Bool) (l : Label Bool Unit) :
    Option Failure :=
  match s.next T l with
  | .error e => some e
  | .ok _ => none

theorem failure_eq_some {T : ListenTransport Bool Unit} {s : Bound Bool} {l : Label Bool Unit}
    {e : Failure} (h : failure T s l = some e) : s.next T l = .error e := by
  unfold failure at h
  split at h
  · next hnext => rw [hnext, Option.some.inj h]
  · exact absurd h (by simp)

/-- The endpoint is created, a connection is accepted, and the worker finds its descriptor broken
before it takes the task to send. -/
def brokenWhileSending : List (Label Bool Unit) :=
  [.create { prep := () }, .listenerTask, .listenerIn (.fd 7), .deliver { prep := () },
    .deliver { prep := () },
    .session 0 { fsm := .active, state := .done, tasks := [.send] }, .sessionError 0,
    .deliver { prep := (), now := [0] }, .deliver { prep := () }, .deliver { prep := () },
    .deliver { prep := () }]

/-- Some steps lead to a state in which a step fails. -/
theorem exists_failure {T : ListenTransport Bool Unit} (option : Bool)
    (labels : List (Label Bool Unit)) {l : Label Bool Unit} {e : Failure}
    (h : (System.follow (tryNext T) (new option) labels).any (fun s =>
      decide (s.Enabled l) && decide (failure T s l = some e)) = true) :
    ∃ s, (system T 100 100).Reachable s ∧ s.Enabled l ∧ s.next T l = .error e := by
  obtain ⟨s, hfollow, hlast⟩ := (Option.any_eq_true _ _).mp h
  obtain ⟨hen, hfails⟩ := Bool.and_eq_true_iff.mp hlast
  have hinit : (system T 100 100).Reachable (new option) := .start ⟨option, rfl⟩
  exact ⟨s, hinit.follow (fun _ _ _ => System.tryStep_eq_some) hfollow, of_decide_eq_true hen,
    failure_eq_some (of_decide_eq_true hfails)⟩

/-- The task to send is left when the connection is terminated. -/
theorem brokenWhileSending_fails : ∃ s, (system anywhere 100 100).Reachable s ∧
    s.Enabled (.deliver { prep := () } : Label Bool Unit) ∧
    s.next anywhere (.deliver { prep := () }) = .error ⟨.term, .assertion⟩ :=
  exists_failure true brokenWhileSending (by decide +kernel)

theorem not_shutdown_orderly : ¬∀ s : Bound Bool, (system anywhere 100 100).Reachable s →
    s.Orderly anywhere 100 100 fun _ _ => True := by
  intro hall
  obtain ⟨s, hreach, hen, hfails⟩ := brokenWhileSending_fails
  exact ((hall s hreach).safe _ _ trivial hen hfails).2 rfl

/-! ## The address is parsed again -/

/-- The step has the endpoint listen again. -/
def Relistens (s : Bound α) (l : Label α ρ) : Prop :=
  s.state = .stoppingBackoff ∧ s.events.head? = some (.retry .stopped) ∧ ∃ os, l = .deliver os

theorem handler_resolve (resolve : α → ρ → Except Abort Unit) (os : ListenAnswers ρ)
    (e : BoundEvent) (h : ¬(s.state = .stoppingBackoff ∧ e = .retry .stopped)) :
    s.handler { T with resolve := resolve } os e = s.handler T os e := by
  unfold handler
  cases hstate : s.state with
  | stoppingBackoff =>
      cases e with
      | retry x =>
          cases x with
          | stopped => exact absurd ⟨hstate, rfl⟩ h
          | timeout => rfl
      | _ => rfl
  | _ => rfl

/-- How the address is made matters to no other step but the creation. -/
theorem next_resolve (resolve : α → ρ → Except Abort Unit) (h : ¬s.Relistens l)
    (hcreate : ∀ os, l ≠ .create os) : s.next { T with resolve := resolve } l = s.next T l := by
  cases l with
  | create os => exact absurd rfl (hcreate os)
  | deliver os =>
      cases hevents : s.events with
      | nil => simp only [next, deliver, hevents]
      | cons e rest =>
          have hhandler := handler_resolve (T := T) (s := { s with events := rest }) resolve os e
            fun hboth => h ⟨hboth.1, by rw [hevents, hboth.2]; rfl, os, rfl⟩
          simp only [next, deliver, hevents, hhandler]
          rfl
  | _ => rfl

/-- The checks of the address do not end the process in a step. -/
def Parses (T : ListenTransport α ρ) (s : Bound α) (l : Label α ρ) : Prop :=
  ∀ e, s.next T l = .error e → e.site ≠ .address

theorem Inv.not_created (h : s.Inv) (hcreated : s.created = false) : s.New := by
  have hidle : s.fsm = .idle := by
    by_contra hne
    exact absurd ((h.created hne).symm.trans hcreated) (by simp)
  cases h.phase with
  | new hp => exact hp
  | finished hp => exact absurd (hp.created.symm.trans hcreated) (by simp)
  | waiting q hp | closing hp | stoppingBackoff q hp | active a hp | stoppingAtcp a hp
  | usockStopped a hp | atcpStopped a hp | stoppingUsock hp | stoppingRetry q hp
  | stoppingAtcps hp => exact absurd (hidle.symm.trans hp.fsm) (by simp)

/-- An endpoint whose address is never accepted is never created. -/
theorem not_created_of_rejected {minivl maxivl : Int} (hreject : ∀ option, T.accepts option = false)
    (h : (system T minivl maxivl).Reachable s) : s.created = false := by
  refine h.invariant (P := fun s => s.created = false) ?_ ?_
  · rintro s ⟨option, rfl⟩
    rfl
  · intro s l s' hreach hs hstep
    obtain ⟨hen, hnext⟩ := hstep
    have hinv := inv_of_reachable hreach
    rcases label_new hinv (hinv.not_created hs) hen with ⟨os, rfl⟩ | ⟨option, rfl⟩
    · have hsame : s.next T (.create os) = .ok s := by
        simp only [next, create, hreject, Bool.false_eq_true, if_false]
      obtain rfl := Except.ok.inj (hsame.symm.trans hnext)
      exact hs
    · obtain rfl := Except.ok.inj hnext
      exact hs

theorem Inv.stoppingBackoff (h : s.Inv) (hstate : s.state = .stoppingBackoff) :
    ∃ q, s.StoppingBackoff q := by
  cases h.phase with
  | stoppingBackoff q hp => exact ⟨q, hp⟩
  | new hp | waiting q hp | closing hp | active a hp | stoppingAtcp a hp | usockStopped a hp
  | atcpStopped a hp | stoppingUsock hp | stoppingRetry q hp | stoppingAtcps hp | finished hp =>
      exact absurd (hstate.symm.trans hp.state) (by simp)

/-- The endpoint listens again. -/
theorem next_relistens {os : ListenAnswers ρ} (hfsm : s.fsm = .active)
    (hstate : s.state = .stoppingBackoff) (hhead : s.events.head? = some (.retry .stopped)) :
    s.next T (.deliver os) = Bound.startListening T { s with events := s.events.tail } os := by
  have hactive : ¬s.fsm = .stopping := by simp [hfsm]
  cases hevents : s.events with
  | nil => exact absurd (hhead.symm.trans (congrArg List.head? hevents)) (by simp)
  | cons e rest =>
      obtain rfl : e = .retry .stopped :=
        Option.some.inj ((congrArg List.head? hevents).symm.trans hhead)
      simp only [next, deliver, hevents, if_neg hactive]
      unfold handler
      simp only [hstate, List.tail_cons]

/-- A step fails for the address only if that cannot be made. -/
theorem parses_of_resolve (h : s.Inv) (hen : s.Enabled l)
    (hok : ∀ os, l.listen? = some os → T.resolve s.option os.prep = .ok ()) : s.Parses T l := by
  intro e he
  rcases fares (T := T) h hen with ⟨s', hs', -⟩ | ⟨e', he', hfails⟩
  · exact absurd (hs'.symm.trans he) (by simp)
  · obtain rfl : e' = e := Except.error.inj (he'.symm.trans he)
    cases hfails with
    | address os hl _ hresolve => exact absurd ((hok os hl).symm.trans hresolve) (by simp)
    | prepare os _ _ _ => simp
    | retry os _ _ _ => simp
    | accept _ _ => simp
    | term _ => simp

/-- Other steps do not make it. -/
theorem parses_of_not_relistens (h : s.Inv) (hen : s.Enabled l) (hl : ¬s.Relistens l)
    (hcreate : ∀ os, l ≠ .create os) : s.Parses T l := by
  intro e he
  rw [← next_resolve (fun _ _ => .ok ()) hl hcreate] at he
  exact parses_of_resolve h hen (fun _ _ => rfl) e he

variable {pton : InetPton} {addr : List UInt8}

/-- The address that `grid_btcp_create` accepts can be made at once. -/
theorem parses_create {s : Bound Bool} {os : ListenAnswers Unit} (hpton : pton.Documented)
    (hlength : addr.length < 128) (h : s.Inv) (hen : s.Enabled (.create os)) :
    s.Parses (btcp pton addr) (.create os) := by
  by_cases haccepts : (btcp pton addr).accepts s.option = true
  · apply parses_of_resolve h hen
    intro _ _
    exact (btcpResolve_iff hpton hlength).mpr ((btcp_accepts hpton hlength).mp haccepts)
  · intro e he
    have hsame : s.next (btcp pton addr) (.create os) = .ok s := if_neg haccepts
    exact absurd (hsame.symm.trans he) (by simp)

/-- The address is parsed again without a failure, unless the endpoint listens again while
GRID_IPV4ONLY is set and the interface is an IPv6 address. -/
theorem relisten_iff {minivl maxivl : Int} {s : Bound Bool} {l : Label Bool Unit}
    (hpton : pton.Documented) (hlength : addr.length < 128)
    (h : (system (btcp pton addr) minivl maxivl).Reachable s) (hen : s.Enabled l) :
    s.Parses (btcp pton addr) l ↔
      (s.Relistens l → s.option = true → IsIpv4BindAddress pton addr) := by
  have hinv := inv_of_reachable h
  by_cases hl : s.Relistens l
  · obtain ⟨hstate, hhead, os, rfl⟩ := hl
    obtain ⟨q, hp⟩ := hinv.stoppingBackoff hstate
    -- it was created, so its address was accepted once
    obtain ⟨option, haccepts⟩ : ∃ option, (btcp pton addr).accepts option = true := by
      by_contra hnone
      have hfalse := not_created_of_rejected
        (fun option => Bool.eq_false_iff.mpr fun ha => hnone ⟨option, ha⟩) h
      exact absurd ((hinv.created (by simp [hp.fsm])).symm.trans hfalse) (by simp)
    have hagain := btcpResolve_again s.option hpton hlength haccepts
    constructor
    · intro hparses _
      rw [← hagain]
      cases hresolve : btcpResolve pton addr s.option with
      | ok _ => rfl
      | error x =>
          have hfails : s.next (btcp pton addr) (.deliver os) = .error ⟨.address, x⟩ := by
            rw [next_relistens hp.fsm hstate hhead]
            simp only [startListening, btcp, hresolve, Site.call_error]
            rfl
          exact absurd rfl (hparses _ hfails)
    · intro hcond
      apply parses_of_resolve hinv hen
      intro _ _
      exact hagain.mpr (hcond ⟨hstate, hhead, os, rfl⟩)
  · refine iff_of_true ?_ fun hrelistens => absurd hrelistens hl
    by_cases hcreate : ∃ os, l = .create os
    · obtain ⟨os, rfl⟩ := hcreate
      exact parses_create hpton hlength hinv hen
    · exact parses_of_not_relistens hinv hen hl fun os heq => hcreate ⟨os, heq⟩

/-- `tcp://[::1]:5555`. -/
def loopback : ListenTransport Bool Unit := btcp loopbackOnly bracketedLoopback

/-- The endpoint is created while IPv6 addresses are allowed, the first attempt to listen fails,
and IPv6 addresses are forbidden before the next one. -/
def forbiddenBetween : List (Label Bool Unit) :=
  [.create { prep := (), socket := false }, .setopt true, .retry .task, .retry .expire,
    .deliver { prep := () }, .retry .task]

/-- The address cannot be parsed again. -/
theorem forbiddenBetween_fails : ∃ s, (system loopback 100 100).Reachable s ∧
    s.Enabled (.deliver { prep := () } : Label Bool Unit) ∧
    s.next loopback (.deliver { prep := () }) = .error ⟨.address, .errnum⟩ :=
  exists_failure false forbiddenBetween (by decide +kernel)

theorem relisten_iff_loopback : ∃ s, (system loopback 100 100).Reachable s ∧
    (s.Parses loopback (.deliver { prep := () }) ↔
      (s.Relistens (.deliver { prep := () } : Label Bool Unit) → s.option = true →
        IsIpv4BindAddress loopbackOnly bracketedLoopback)) := by
  obtain ⟨s, hreach, hen, -⟩ := forbiddenBetween_fails
  exact ⟨s, hreach, relisten_iff loopbackOnly_documented (by decide) hreach hen⟩

theorem not_parses : ¬∀ (s : Bound Bool) (l : Label Bool Unit),
    (system loopback 100 100).Reachable s → s.Enabled l → s.Parses loopback l := by
  intro hall
  obtain ⟨s, hreach, hen, hfails⟩ := forbiddenBetween_fails
  exact hall s _ hreach hen _ hfails rfl

end Bound

end GridMq.Transports
