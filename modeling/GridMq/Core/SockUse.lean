import GridMq.Core.SockRuns

set_option autoImplicit false

/-!
# The threads that use a socket (`src/core/global.c`)

`grid_bind`, `grid_connect`, `grid_shutdown` and `grid_close` of any number of threads on
one socket: each obtains the socket, acts on it and releases it, while its endpoints stop
on their own.
-/

namespace GridMq.Core

open GridMq.Aio GridMq.Library

/-- What a thread was called for. -/
inductive Op where
  | bind
  | connect
  | shutdown (eid : Nat)
  deriving DecidableEq, Repr

/-- A call that holds the socket. -/
structure Call where
  op : Op
  /-- its `grid_sock_add_ep` or `grid_sock_rm_ep` was called -/
  acted : Bool := false
  deriving DecidableEq, Repr

/-- How far `grid_close` has come. -/
inductive Closing where
  | opened
  /-- `grid_sock_stop` was called, under the global lock -/
  | stopped
  /-- in `grid_sock_term`, before `termsem` -/
  | termsem
  /-- in `grid_sock_term`, before `relesem` -/
  | relesem
  /-- in `grid_sock_term`, past both -/
  | released
  /-- `grid_sock_term` has completed -/
  | done
  deriving DecidableEq, Repr

/-- A socket, the calls that hold it, and the endpoints that `grid_ep_stop` was called
for. -/
structure SockUse where
  sock : Sock := {}
  calls : List Call := []
  closing : Closing := .opened
  stopped : List Nat := []
  deriving DecidableEq, Repr

namespace SockUse

variable {kind : SockKind} {s : SockUse}

/-! ## Steps -/

/-- What can happen. -/
inductive Label where
  /-- `grid_global_hold_socket` -/
  | hold (op : Op)
  /-- a call adds or removes an endpoint; `accepted` if the transport takes the address -/
  | act (i : Nat) (accepted : Bool)
  /-- `grid_global_rele_socket` -/
  | rele (i : Nat)
  /-- `grid_close`, up to `grid_sock_stop` -/
  | close
  /-- the two releases of `grid_close` -/
  | closeRele
  /-- the waits of `grid_sock_term`, and what it does after them -/
  | waitTermsem
  | waitRelesem
  | term
  /-- the socket starts, its endpoints and its socket type report, its events are processed -/
  | env (l : Sock.Label)
  deriving DecidableEq

/-- Steps of the socket that are not taken by a call. -/
def isEnv : Sock.Label → Bool
  | .zombify => false
  | .stop => false
  | .addEp => false
  | .rmEp _ => false
  | _ => true

/-- When a step can be taken: holds are taken and dropped under the global lock, which
`grid_close` keeps until it has stopped the socket and dropped its own. -/
def Enabled (self : SockUse) : Label → Prop
  | .hold _ => self.sock.fsm ≠ .idle ∧ self.closing ≠ .stopped
  | .act i _ => (∃ c ∈ self.calls[i]?, c.acted = false) ∧ self.sock.entered = false
  | .rele i => i < self.calls.length ∧ self.closing ≠ .stopped
  | .close => self.sock.fsm ≠ .idle ∧ self.closing ≠ .stopped ∧ self.sock.entered = false
  | .closeRele => self.closing = .stopped
  | .waitTermsem => self.closing = .termsem ∧ 0 < self.sock.termsem
  | .waitRelesem => self.closing = .relesem ∧ 0 < self.sock.relesem
  | .term => self.closing = .released ∧ self.sock.entered = false
  | .env l => self.closing ≠ .done ∧ isEnv l = true ∧ self.sock.Enabled l

instance (self : SockUse) (l : Label) : Decidable (self.Enabled l) :=
  match l with
  | .hold _ => inferInstanceAs (Decidable (_ ∧ _))
  | .act _ _ => inferInstanceAs (Decidable ((∃ c ∈ _, _) ∧ _))
  | .rele _ => inferInstanceAs (Decidable (_ ∧ _))
  | .close => inferInstanceAs (Decidable (_ ∧ _ ∧ _))
  | .closeRele => inferInstanceAs (Decidable (_ = _))
  | .waitTermsem => inferInstanceAs (Decidable (_ ∧ _))
  | .waitRelesem => inferInstanceAs (Decidable (_ ∧ _))
  | .term => inferInstanceAs (Decidable (_ ∧ _))
  | .env l => inferInstanceAs (Decidable (_ ∧ _ ∧ self.sock.Enabled l))

/-- `grid_sock_add_ep` by `grid_bind` and `grid_connect`. -/
def add (kind : SockKind) (self : SockUse) (accepted : Bool) : Except Abort SockUse :=
  if accepted then do
    let sock ← self.sock.next kind .addEp
    return { self with sock := sock }
  else .ok { self with sock := { self.sock with entered := true } }

/-- `grid_sock_rm_ep` by `grid_shutdown`. -/
def remove (kind : SockKind) (self : SockUse) (eid : Nat) : Except Abort SockUse := do
  let sock ← self.sock.next kind (.rmEp eid)
  return { self with
    sock := sock
    stopped := if ∃ ep ∈ self.sock.eps, ep.eid = eid then self.stopped ++ [eid]
      else self.stopped }

/-- What a call holds the socket for. -/
def act (kind : SockKind) (self : SockUse) (accepted : Bool) : Op → Except Abort SockUse
  | .bind => self.add kind accepted
  | .connect => self.add kind accepted
  | .shutdown eid => self.remove kind eid

/-- One step. -/
def next (kind : SockKind) (self : SockUse) : Label → Except Abort SockUse
  | .hold op =>
      match self.sock.hold with
      | (sock, .zero) => .ok { self with sock := sock, calls := self.calls ++ [{ op := op }] }
      | (_, .eterm) => .ok self
      | (_, .ebadf) => .ok self
  | .act i accepted =>
      match self.calls[i]? with
      | none => .ok self
      | some c =>
          { self with calls := self.calls.set i { c with acted := true } }.act kind accepted c.op
  | .rele i => .ok { self with sock := self.sock.rele, calls := self.calls.eraseIdx i }
  | .close =>
      match self.sock.hold with
      | (sock, .zero) => do
          let sock ← sock.next kind .stop
          return { self with
            sock := sock, closing := .stopped
            stopped := self.stopped ++ self.sock.eps.map Ep.eid }
      | (_, .eterm) => .ok self
      | (_, .ebadf) => .ok self
  | .closeRele => .ok { self with sock := self.sock.rele.rele, closing := .termsem }
  | .waitTermsem => .ok { self with
      sock := { self.sock with termsem := self.sock.termsem - 1 }, closing := .relesem }
  | .waitRelesem => .ok { self with
      sock := { self.sock with relesem := self.sock.relesem - 1 }, closing := .released }
  | .term => do
      let sock ← self.sock.term
      return { self with sock := sock, closing := .done }
  | .env l => do
      let sock ← self.sock.next kind l
      return { self with sock := sock }

/-- The runs of the threads that use a socket of some type. -/
def system (kind : SockKind) : System SockUse Label where
  init s := s = {}
  step s l s' := s.Enabled l ∧ s.next kind l = .ok s'

/-- One step, if it can be taken and does not end the process. -/
def tryNext (kind : SockKind) (self : SockUse) (l : Label) : Option SockUse :=
  if self.Enabled l then (self.next kind l).toOption else none

theorem tryNext_step {s s' : SockUse} {l : Label} (h : s.tryNext kind l = some s') :
    (system kind).step s l s' := by
  unfold tryNext at h
  split at h
  · rename_i hen
    refine ⟨hen, ?_⟩
    cases hnext : s.next kind l with
    | error a => simp [hnext, Except.toOption] at h
    | ok s'' => simpa [hnext, Except.toOption] using h
  · exact absurd h (by simp)

theorem rele_eq (s : Sock) : s.rele = { s with
    holds := s.holds - 1
    relesem := if s.holds - 1 = 0 then s.relesem + 1 else s.relesem } := by
  unfold Sock.rele
  by_cases h : s.holds - 1 = 0
  · simp only [h, if_true]
  · simp only [h, if_false]

/-! ## Late endpoints -/

/-- When the last of the endpoints that are shutting down has stopped, no other is left. -/
def NoneLeft (s : Sock) : SockEvent → Prop
  | .epStopped eid => s.state = .stoppingEps → s.eps = [] ∨ ∃ ep ∈ s.sdeps, ep.eid ≠ eid
  | .epAction _ => True
  | .pipe _ _ _ => True
  | .stopped => True

instance (s : Sock) (e : SockEvent) : Decidable (NoneLeft s e) :=
  match e with
  | .epStopped _ => inferInstanceAs (Decidable (_ → _ ∨ ∃ ep ∈ _, _))
  | .epAction _ => inferInstanceAs (Decidable True)
  | .pipe _ _ _ => inferInstanceAs (Decidable True)
  | .stopped => inferInstanceAs (Decidable True)

/-- No endpoint comes too late: none is added once those of the socket have stopped, and
none is left that was added after `grid_close` when the last of them stops. -/
def Timely (s : SockUse) : Label → Prop
  | .act i true => (∃ c ∈ s.calls[i]?, c.op = .bind ∨ c.op = .connect) →
      s.sock.state ≠ .stopping ∧ s.sock.state ≠ .fini
  | .env .deliver => ∀ e ∈ s.sock.events.head?, NoneLeft s.sock e
  | _ => True

instance (s : SockUse) (l : Label) : Decidable (s.Timely l) :=
  match l with
  | .act _ true => inferInstanceAs (Decidable ((∃ c ∈ _, _) → _))
  | .act _ false => inferInstanceAs (Decidable True)
  | .env .deliver => inferInstanceAs (Decidable (∀ e ∈ s.sock.events.head?, _))
  | .env .start => inferInstanceAs (Decidable True)
  | .env .zombify => inferInstanceAs (Decidable True)
  | .env .stop => inferInstanceAs (Decidable True)
  | .env .addEp => inferInstanceAs (Decidable True)
  | .env (.rmEp _) => inferInstanceAs (Decidable True)
  | .env (.epReports _) => inferInstanceAs (Decidable True)
  | .env (.pipeEvent _ _ _) => inferInstanceAs (Decidable True)
  | .env .sockbaseReports => inferInstanceAs (Decidable True)
  | .env (.leave _ _) => inferInstanceAs (Decidable True)
  | .hold _ => inferInstanceAs (Decidable True)
  | .rele _ => inferInstanceAs (Decidable True)
  | .close => inferInstanceAs (Decidable True)
  | .closeRele => inferInstanceAs (Decidable True)
  | .waitTermsem => inferInstanceAs (Decidable True)
  | .waitRelesem => inferInstanceAs (Decidable True)
  | .term => inferInstanceAs (Decidable True)

/-! ## What a step of the socket changes -/

/-- The endpoints of a socket, with those that were freed. -/
inductive Moved (s s' : Sock) : Prop where
  | none (heps : s'.eps.map Ep.eid = s.eps.map Ep.eid)
      (hsdeps : s'.sdeps.map Ep.eid = s.sdeps.map Ep.eid) (hfreed : s'.freed = s.freed)
  | freed (n : Nat) (heps : s'.eps = s.eps) (hmem : ∃ ep ∈ s.sdeps, ep.eid = n)
      (hsdeps : s'.sdeps = s.sdeps.eraseP (·.eid = n)) (hfreed : s'.freed = s.freed ++ [n])

/-- The state of a socket. -/
inductive Came (s s' : Sock) : Prop where
  | none (hstate : s'.state = s.state) (hsem : s'.termsem = s.termsem)
  | started (hstate : s'.state = .active) (hsem : s'.termsem = s.termsem) (hfsm : s.fsm = .idle)
  | emptied (hold : s.state = .stoppingEps) (hstate : s'.state = .stopping)
      (hsem : s'.termsem = s.termsem) (heps : s'.eps = []) (hsdeps : s'.sdeps = [])
  | gone (hold : s.state = .stoppingEps) (hstate : s'.state = .fini) (heps : s'.eps = [])
      (hsdeps : s'.sdeps = [])
  | ended (hold : s.state = .stopping) (hstate : s'.state = .fini) (heps : s'.eps = s.eps)
      (hsdeps : s'.sdeps = s.sdeps)

/-- What a step that no call takes changes. -/
structure Effect (s s' : Sock) : Prop where
  fsm : s'.fsm = s.fsm ∨ s.fsm = .idle ∧ s'.fsm = .active
  eid : s'.eid = s.eid
  holds : s'.holds = s.holds
  relesem : s'.relesem = s.relesem
  moved : Moved s s'
  came : Came s s'

theorem freeEp_effect {s s' : Sock} {n : Nat} (h : s.freeEp n = .ok s') :
    (∃ ep ∈ s.sdeps, ep.eid = n) ∧
    s' = { s with sdeps := s.sdeps.eraseP (·.eid = n), freed := s.freed ++ [n] } := by
  unfold Sock.freeEp at h
  cases hfind : s.sdeps.find? (·.eid = n) with
  | none => simp [hfind] at h
  | some ep =>
      simp only [hfind] at h
      obtain ⟨-, -, h⟩ := bind_eq_ok_iff.mp h
      obtain ⟨-, -, h⟩ := bind_eq_ok_iff.mp h
      exact ⟨⟨ep, List.mem_of_find?_eq_some hfind, by simpa using List.find?_some hfind⟩,
        (Except.ok.inj h).symm⟩

/-- The socket goes on to its end, or stays as it is. -/
theorem finish2_effect {s s' : Sock} (h : s.finish2 kind = .ok s')
    (hstate : s.state = .stoppingEps) :
    s'.eps = s.eps ∧ s'.sdeps = s.sdeps ∧ s'.freed = s.freed ∧ s'.fsm = s.fsm ∧
      s'.eid = s.eid ∧ s'.holds = s.holds ∧ s'.relesem = s.relesem ∧ Came s s' := by
  unfold Sock.finish2 at h
  split at h
  · obtain rfl := Except.ok.inj h
    exact ⟨rfl, rfl, rfl, rfl, rfl, rfl, rfl, .none rfl rfl⟩
  · rename_i hsdeps
    obtain ⟨_, heps, h⟩ := bind_eq_ok_iff.mp h
    have heps := gridAssert_eq_ok_iff.mp heps
    have hsdeps : s.sdeps = [] := by simpa using hsdeps
    cases hstop : kind.hasStop with
    | true =>
        rw [hstop] at h
        obtain rfl := Except.ok.inj h
        exact ⟨rfl, rfl, rfl, rfl, rfl, rfl, rfl, .emptied hstate rfl rfl heps hsdeps⟩
    | false =>
        rw [hstop] at h
        obtain rfl := Except.ok.inj h
        exact ⟨rfl, rfl, rfl, rfl, rfl, rfl, rfl, .gone hstate rfl heps hsdeps⟩

theorem shutdown_effect {s s' : Sock} {e : SockEvent} (h : s.shutdown kind e = .ok s') :
    Effect s s' := by
  have hquiet : Effect s s :=
    ⟨Or.inl rfl, rfl, rfl, rfl, .none rfl rfl rfl, .none rfl rfl⟩
  cases hstate : s.state with
  | stoppingEps =>
      cases e with
      | epStopped n =>
          simp only [Sock.shutdown, hstate] at h
          obtain ⟨s₁, hfree, hfinish⟩ := bind_eq_ok_iff.mp h
          obtain ⟨hmem, rfl⟩ := freeEp_effect hfree
          obtain ⟨heps, hsdeps, hfreed, hfsm, heid, hholds, hrele, hcame⟩ :=
            finish2_effect hfinish hstate
          refine ⟨Or.inl hfsm, heid, hholds, hrele, .freed n heps hmem hsdeps hfreed, ?_⟩
          cases hcame with
          | none h₁ h₂ => exact .none h₁ h₂
          | started h₁ h₂ h₃ => exact .started h₁ h₂ h₃
          | emptied h₁ h₂ h₃ h₄ h₅ => exact .emptied h₁ h₂ h₃ h₄ h₅
          | gone h₁ h₂ h₃ h₄ => exact .gone h₁ h₂ h₃ h₄
          | ended h₁ => exact absurd (hstate.symm.trans h₁) (by simp)
      | epAction eid | pipe eid pipe out | stopped =>
          simp only [Sock.shutdown, hstate] at h
          exact Except.ok.inj h ▸ hquiet
  | stopping =>
      simp only [Sock.shutdown, hstate] at h
      obtain ⟨-, -, h⟩ := bind_eq_ok_iff.mp h
      obtain rfl := Except.ok.inj h
      exact ⟨Or.inl rfl, rfl, rfl, rfl, .none rfl rfl rfl, .ended hstate rfl rfl rfl⟩
  | init => simp only [Sock.shutdown, hstate, reduceCtorEq] at h
  | active => simp only [Sock.shutdown, hstate, reduceCtorEq] at h
  | zombie => simp only [Sock.shutdown, hstate, reduceCtorEq] at h
  | fini => simp only [Sock.shutdown, hstate, reduceCtorEq] at h

theorem map_eid_setEp (l : List Ep) (ep : Ep) :
    (l.map fun ep' => if ep'.eid = ep.eid then ep else ep').map Ep.eid = l.map Ep.eid := by
  rw [List.map_map]
  refine List.map_congr_left fun x _ => ?_
  simp only [Function.comp]
  split
  · rename_i heq
    exact heq.symm
  · rfl

/-- Taking an event from the queue changes nothing that `Effect` speaks of. -/
theorem Effect.of_pop {s s' : Sock} {events : List SockEvent}
    (h : Effect { s with events := events } s') : Effect s s' := by
  obtain ⟨hfsm, heid, hholds, hrele, hmoved, hcame⟩ := h
  refine ⟨hfsm, heid, hholds, hrele, ?_, ?_⟩
  · cases hmoved with
    | none h₁ h₂ h₃ => exact .none h₁ h₂ h₃
    | freed n h₁ h₂ h₃ h₄ => exact .freed n h₁ h₂ h₃ h₄
  · cases hcame with
    | none h₁ h₂ => exact .none h₁ h₂
    | started h₁ h₂ h₃ => exact .started h₁ h₂ h₃
    | emptied h₁ h₂ h₃ h₄ h₅ => exact .emptied h₁ h₂ h₃ h₄ h₅
    | gone h₁ h₂ h₃ h₄ => exact .gone h₁ h₂ h₃ h₄
    | ended h₁ h₂ h₃ h₄ => exact .ended h₁ h₂ h₃ h₄

theorem process_effect {s s' : Sock} {e : SockEvent} (h : s.process kind e = .ok s') :
    Effect s s' := by
  have hother : (∀ eid, e ≠ .epAction eid) →
      (if s.fsm = .stopping then s.shutdown kind e else s.handler e) = .ok s' → Effect s s' := by
    intro he h
    split at h
    · exact shutdown_effect h
    · cases hstate : s.state with
      | active =>
          cases e with
          | epStopped n =>
              simp only [Sock.handler, hstate] at h
              obtain ⟨hmem, rfl⟩ := freeEp_effect h
              exact ⟨Or.inl rfl, rfl, rfl, rfl, .freed n rfl hmem rfl rfl, .none rfl rfl⟩
          | pipe eid pipe out =>
              simp only [Sock.handler, hstate] at h
              obtain rfl := Except.ok.inj h
              exact ⟨Or.inl rfl, rfl, rfl, rfl, .none rfl rfl rfl, .none rfl rfl⟩
          | epAction eid => exact absurd rfl (he eid)
          | stopped => simp only [Sock.handler, hstate, reduceCtorEq] at h
      | init => cases e <;> simp only [Sock.handler, hstate, reduceCtorEq] at h
      | zombie => simp only [Sock.handler, hstate, reduceCtorEq] at h
      | stoppingEps => simp only [Sock.handler, hstate, reduceCtorEq] at h
      | stopping => simp only [Sock.handler, hstate, reduceCtorEq] at h
      | fini => simp only [Sock.handler, hstate, reduceCtorEq] at h
  cases e with
  | epAction eid =>
      simp only [Sock.process] at h
      cases hfind : s.findEp eid with
      | none => simp [hfind] at h
      | some ep =>
          simp only [hfind] at h
          obtain ⟨ep', hep', h⟩ := bind_eq_ok_iff.mp h
          obtain ⟨events, -, h⟩ := bind_eq_ok_iff.mp h
          obtain rfl := Except.ok.inj h
          exact ⟨Or.inl rfl, rfl, rfl, rfl,
            .none (map_eid_setEp _ _) (map_eid_setEp _ _) rfl, .none rfl rfl⟩
  | epStopped eid => exact hother (by simp) h
  | pipe eid pipe out => exact hother (by simp) h
  | stopped => exact hother (by simp) h

/-- What a step of the environment changes. -/
theorem env_effect {s s' : Sock} {l : Sock.Label} (hl : isEnv l = true)
    (h : s.next kind l = .ok s') : Effect s s' := by
  cases l with
  | start =>
      obtain ⟨_, hfsm, h⟩ := bind_eq_ok_iff.mp h
      have hfsm := gridAssert_eq_ok_iff.mp hfsm
      cases hstate : s.state with
      | init =>
          simp only [hstate] at h
          obtain rfl := Except.ok.inj h
          exact ⟨Or.inr ⟨hfsm, rfl⟩, rfl, rfl, rfl, .none rfl rfl rfl, .started rfl rfl hfsm⟩
      | active | zombie | stoppingEps | stopping | fini => simp only [hstate, reduceCtorEq] at h
  | zombify => exact absurd hl (by simp [isEnv])
  | stop => exact absurd hl (by simp [isEnv])
  | addEp => exact absurd hl (by simp [isEnv])
  | rmEp eid => exact absurd hl (by simp [isEnv])
  | epReports eid =>
      simp only [Sock.next, Sock.epReports] at h
      split at h
      · exact absurd h (by simp)
      · obtain ⟨events, -, h⟩ := bind_eq_ok_iff.mp h
        obtain rfl := Except.ok.inj h
        exact ⟨Or.inl rfl, rfl, rfl, rfl,
          .none (map_eid_setEp _ _) (map_eid_setEp _ _) rfl, .none rfl rfl⟩
  | pipeEvent eid pipe out | sockbaseReports =>
      obtain ⟨events, -, h⟩ := bind_eq_ok_iff.mp h
      obtain rfl := Except.ok.inj h
      exact ⟨Or.inl rfl, rfl, rfl, rfl, .none rfl rfl rfl, .none rfl rfl⟩
  | deliver =>
      simp only [Sock.next] at h
      split at h
      · obtain rfl := Except.ok.inj h
        exact ⟨Or.inl rfl, rfl, rfl, rfl, .none rfl rfl rfl, .none rfl rfl⟩
      · exact (process_effect h).of_pop
  | leave canRecv canSend =>
      obtain ⟨s₁, hleave, h⟩ := bind_eq_ok_iff.mp h
      obtain rfl := Except.ok.inj h
      unfold Sock.onleave at hleave
      split at hleave
      · obtain rfl := Except.ok.inj hleave
        exact ⟨Or.inl rfl, rfl, rfl, rfl, .none rfl rfl rfl, .none rfl rfl⟩
      · obtain ⟨rcv, -, hleave⟩ := bind_eq_ok_iff.mp hleave
        obtain ⟨snd, -, hleave⟩ := bind_eq_ok_iff.mp hleave
        obtain rfl := Except.ok.inj hleave
        exact ⟨Or.inl rfl, rfl, rfl, rfl, .none rfl rfl rfl, .none rfl rfl⟩

end SockUse

end GridMq.Core
