import GridMq.Core.Endpoints

set_option autoImplicit false

/-!
# Runs of a socket

The socket together with everything that acts on it: the calls that add and remove
endpoints, `grid_term` and `grid_close`, the transports behind its endpoints, and its
socket type.
-/

namespace GridMq.Core.Sock

open GridMq.Aio GridMq.Library

variable {kind : SockKind} {s : Sock}

/-! ## Steps -/

/-- What can happen to a socket. -/
inductive Label where
  /-- the end of `grid_sock_init` -/
  | start
  /-- `grid_sock_zombify`, called by `grid_term` -/
  | zombify
  /-- `grid_sock_stop`, called by `grid_close` -/
  | stop
  /-- `grid_sock_add_ep`, where the transport accepts the address -/
  | addEp
  /-- `grid_sock_rm_ep` -/
  | rmEp (eid : Nat)
  /-- the transport's part of an endpoint reports that it has stopped -/
  | epReports (eid : Nat)
  /-- a pipe of an endpoint raises IN or OUT -/
  | pipeEvent (eid pipe : Nat) (out : Bool)
  /-- the socket type reports that it has stopped: `grid_sock_stopped` -/
  | sockbaseReports
  /-- the next event of the queue is processed -/
  | deliver
  /-- the end of `grid_ctx_leave` -/
  | leave (canRecv canSend : Bool)
  deriving DecidableEq

/-- When a step can be taken.  A thread enters the context when no other is in it, and
leaves it when its queue is empty.  Pipes belong to endpoints whose transport has not
stopped, and raise an event once only until it is processed. -/
def Enabled (self : Sock) : Label → Prop
  | .start => self.fsm = .idle ∧ self.entered = false
  | .zombify => self.fsm ≠ .idle ∧ self.entered = false
  | .stop => self.fsm ≠ .idle ∧ self.entered = false
  | .addEp => self.fsm ≠ .idle ∧ self.entered = false
  | .rmEp _ => self.fsm ≠ .idle ∧ self.entered = false
  | .epReports eid => ∃ ep ∈ self.eps ++ self.sdeps, ep.eid = eid ∧ ep.state = .stopping ∧
      ep.reported = false
  | .pipeEvent eid pipe out => (∃ ep ∈ self.eps ++ self.sdeps, ep.eid = eid ∧
      ep.reported = false) ∧ SockEvent.pipe eid pipe out ∉ self.events
  | .sockbaseReports => self.sockbase = .stopping
  | .deliver => self.events ≠ []
  | .leave _ _ => self.entered = true ∧ self.events = []

instance (self : Sock) (l : Label) : Decidable (self.Enabled l) :=
  match l with
  | .start => inferInstanceAs (Decidable (_ ∧ _))
  | .zombify => inferInstanceAs (Decidable (_ ∧ _))
  | .stop => inferInstanceAs (Decidable (_ ∧ _))
  | .addEp => inferInstanceAs (Decidable (_ ∧ _))
  | .rmEp _ => inferInstanceAs (Decidable (_ ∧ _))
  | .epReports _ => inferInstanceAs (Decidable (∃ ep ∈ _, _))
  | .pipeEvent _ _ _ => inferInstanceAs (Decidable ((∃ ep ∈ _, _) ∧ _))
  | .sockbaseReports => inferInstanceAs (Decidable (_ = _))
  | .deliver => inferInstanceAs (Decidable (_ ≠ _))
  | .leave _ _ => inferInstanceAs (Decidable (_ ∧ _))

/-- The transport reports: `grid_ep_stopped`. -/
def epReports (self : Sock) (eid : Nat) : Except Abort Sock :=
  match self.findEp eid with
  | none => .error .nullPointer
  | some ep => (self.setEp { ep with reported := true }).raise (.epAction eid)

/-- One step. -/
def next (kind : SockKind) (self : Sock) : Label → Except Abort Sock
  | .start => { self with entered := true }.start
  | .zombify => { self with entered := true }.zombify kind
  | .stop => { self with entered := true }.stop kind
  | .addEp => .ok { self with entered := true }.addEp
  | .rmEp eid => .ok (({ self with entered := true } : Sock).rmEp eid |>.getD
      { self with entered := true })
  | .epReports eid => { self with entered := true }.epReports eid
  | .pipeEvent eid pipe out => { self with entered := true }.raise (.pipe eid pipe out)
  | .sockbaseReports =>
      { self with entered := true, sockbase := .reported }.raise .stopped
  | .deliver =>
      match self.events with
      | [] => .ok self
      | e :: events => { self with events := events }.process kind e
  | .leave canRecv canSend => do
      let self ← self.onleave kind canRecv canSend
      return { self with entered := false }

/-- The runs of a socket of some type. -/
def system (kind : SockKind) : System Sock Label where
  init s := s = {}
  step s l s' := s.Enabled l ∧ s.next kind l = .ok s'

/-- One step, if it can be taken and does not end the process. -/
def tryNext (kind : SockKind) (self : Sock) (l : Label) : Option Sock :=
  if self.Enabled l then (self.next kind l).toOption else none

theorem tryNext_step {s s' : Sock} {l : Label} (h : s.tryNext kind l = some s') :
    (system kind).step s l s' := by
  unfold tryNext at h
  split at h
  · rename_i hen
    refine ⟨hen, ?_⟩
    cases hnext : s.next kind l with
    | error a => simp [hnext, Except.toOption] at h
    | ok s'' => simpa [hnext, Except.toOption] using h
  · exact absurd h (by simp)

/-! ## What holds in each state -/

/-- A descriptor is signalled as its flag says. -/
structure Signals (kind : SockKind) (s : Sock) : Prop where
  rcvfd : kind.norecv = false → s.rcvfd.opened = true ∧ s.rcvfd.signaled = s.flagIn
  sndfd : kind.nosend = false → s.sndfd.opened = true ∧ s.sndfd.signaled = s.flagOut

/-- The states of the machine with its queue and its socket type. -/
inductive Phase (kind : SockKind) (s : Sock) : Prop where
  | init (hfsm : s.fsm = .idle) (hstate : s.state = .init) (heps : s.eps = [])
      (hsdeps : s.sdeps = []) (hbase : s.sockbase = .running) (hq : s.events = [])
      (hsignals : s.Signals kind)
  | running (hfsm : s.fsm = .active) (hstate : s.state = .active ∨ s.state = .zombie)
      (hbase : s.sockbase = .running) (hq : s.events.count .stopped = 0)
      (hsignals : s.Signals kind)
  | stoppingEps (hfsm : s.fsm = .stopping) (hstate : s.state = .stoppingEps)
      (hbase : s.sockbase = .running) (hq : s.events.count .stopped = 0)
  | stopping (hfsm : s.fsm = .stopping) (hstate : s.state = .stopping)
      (hq : s.sockbase = .stopping ∧ s.events.count .stopped = 0 ∨
        s.sockbase = .reported ∧ s.events.count .stopped = 1)
  | fini (hfsm : s.fsm = .stopping) (hstate : s.state = .fini) (hbase : s.sockbase = .destroyed)
      (hq : s.events.count .stopped = 0)

structure Inv (kind : SockKind) (s : Sock) : Prop where
  listed : Listed s.eps s.sdeps s.eid s.events
  phase : s.Phase kind

/-! ## Steps that fit -/

/-- An event that its state is prepared for: an active socket takes those of its pipes and
endpoints, and one that is stopping its endpoints does until the last of those has
stopped, when none may be left that was added since. -/
def EventFits (s : Sock) : SockEvent → Prop
  | .pipe _ _ _ => s.state = .active ∨ s.state = .stoppingEps
  | .epStopped eid => s.state = .active ∨
      s.state = .stoppingEps ∧ (s.eps = [] ∨ ∃ ep ∈ s.sdeps, ep.eid ≠ eid)
  | .epAction _ => True
  | .stopped => True

instance (s : Sock) (e : SockEvent) : Decidable (s.EventFits e) :=
  match e with
  | .pipe _ _ _ => inferInstanceAs (Decidable (_ ∨ _))
  | .epStopped _ => inferInstanceAs (Decidable (_ ∨ _ ∧ (_ ∨ ∃ ep ∈ _, _)))
  | .epAction _ => inferInstanceAs (Decidable True)
  | .stopped => inferInstanceAs (Decidable True)

/-- A step that the machine is prepared for.  Only a socket that is in use, or whose
endpoints are shutting down, may be zombified. -/
def Fits (s : Sock) : Label → Prop
  | .zombify => s.state = .active ∨ s.state = .stoppingEps
  | .deliver => ∀ e ∈ s.events.head?, s.EventFits e
  | _ => True

instance (s : Sock) (l : Label) : Decidable (s.Fits l) :=
  match l with
  | .start => inferInstanceAs (Decidable True)
  | .zombify => inferInstanceAs (Decidable (_ ∨ _))
  | .stop => inferInstanceAs (Decidable True)
  | .addEp => inferInstanceAs (Decidable True)
  | .rmEp _ => inferInstanceAs (Decidable True)
  | .epReports _ => inferInstanceAs (Decidable True)
  | .pipeEvent _ _ _ => inferInstanceAs (Decidable True)
  | .sockbaseReports => inferInstanceAs (Decidable True)
  | .deliver => inferInstanceAs (Decidable (∀ e ∈ s.events.head?, _))
  | .leave _ _ => inferInstanceAs (Decidable True)

/-- What a step comes to. -/
def Steps (kind : SockKind) (s : Sock) (l : Label) : Prop :=
  ∃ s', s.next kind l = .ok s' ∧ s'.Inv kind

/-- An endpoint is found by its identifier. -/
theorem Listed.find? {eps sdeps : List Ep} {n : Nat} {events : List SockEvent}
    (h : Listed eps sdeps n events) {ep : Ep} (hep : ep ∈ eps ++ sdeps) :
    (eps ++ sdeps).find? (·.eid = ep.eid) = some ep := by
  obtain ⟨found, hfound⟩ : ∃ found, (eps ++ sdeps).find? (·.eid = ep.eid) = some found :=
    Option.isSome_iff_exists.mp (List.find?_isSome.mpr ⟨ep, hep, by simp⟩)
  have heid : found.eid = ep.eid := by simpa using List.find?_some hfound
  rw [hfound, h.unique (List.mem_of_find?_eq_some hfound) hep heid]

theorem filter_about_stopped (events : List SockEvent) (e : Nat) :
    (events ++ [SockEvent.stopped]).filter (about e) = events.filter (about e) := by
  rw [List.filter_append, List.filter_cons_of_neg (by simp [about]), List.filter_nil,
    List.append_nil]

/-- The label `finish2`, when endpoints may have been freed. -/
theorem finish2_spec (kind : SockKind) (s : Sock) (hlisted : Listed s.eps s.sdeps s.eid s.events)
    (hfsm : s.fsm = .stopping) (hstate : s.state = .stoppingEps) (hbase : s.sockbase = .running)
    (hq : s.events.count .stopped = 0) (hlast : s.sdeps = [] → s.eps = []) :
    ∃ s', s.finish2 kind = .ok s' ∧ s'.Inv kind := by
  unfold finish2
  by_cases hsdeps : s.sdeps = []
  · rw [if_neg (by simp [hsdeps]), gridAssert_pos (hlast hsdeps), ok_bind]
    cases hstop : kind.hasStop with
    | true => exact ⟨_, rfl, hlisted, .stopping hfsm rfl (Or.inl ⟨rfl, hq⟩)⟩
    | false => exact ⟨_, rfl, hlisted, .fini hfsm rfl rfl hq⟩
  · rw [if_pos hsdeps]
    exact ⟨s, rfl, hlisted, .stoppingEps hfsm hstate hbase hq⟩

/-- The lists change and the state does not. -/
theorem Phase.of_lists {s' : Sock} (h : s.Phase kind) (hfsm : s'.fsm = s.fsm)
    (hstate : s'.state = s.state) (hbase : s'.sockbase = s.sockbase)
    (hstopped : s'.events.count .stopped = s.events.count .stopped)
    (hfds : s'.rcvfd = s.rcvfd ∧ s'.sndfd = s.sndfd ∧ s'.flagIn = s.flagIn ∧
      s'.flagOut = s.flagOut)
    (hlists : s.eps = [] → s.sdeps = [] →
      s'.eps = [] ∧ s'.sdeps = [] ∧ s'.events = s.events) : s'.Phase kind := by
  obtain ⟨hrcvfd, hsndfd, hin, hout⟩ := hfds
  have hsig : s.Signals kind → s'.Signals kind := fun hsignals =>
    ⟨by rw [hrcvfd, hin]; exact hsignals.rcvfd, by rw [hsndfd, hout]; exact hsignals.sndfd⟩
  cases h with
  | init hfsm' hstate' heps hsdeps hbase' hq hsignals =>
      obtain ⟨heps', hsdeps', hq'⟩ := hlists heps hsdeps
      exact .init (hfsm.trans hfsm') (hstate.trans hstate') heps' hsdeps' (hbase.trans hbase')
        (hq'.trans hq) (hsig hsignals)
  | running hfsm' hstate' hbase' hq hsignals =>
      exact .running (hfsm.trans hfsm') (by rw [hstate]; exact hstate') (hbase.trans hbase')
        (hstopped.trans hq) (hsig hsignals)
  | stoppingEps hfsm' hstate' hbase' hq =>
      exact .stoppingEps (hfsm.trans hfsm') (hstate.trans hstate') (hbase.trans hbase')
        (hstopped.trans hq)
  | stopping hfsm' hstate' hq =>
      exact .stopping (hfsm.trans hfsm') (hstate.trans hstate') (by rw [hbase, hstopped]; exact hq)
  | fini hfsm' hstate' hbase' hq =>
      exact .fini (hfsm.trans hfsm') (hstate.trans hstate') (hbase.trans hbase')
        (hstopped.trans hq)

theorem Inv.steps_start (h : s.Inv kind) (hen : s.Enabled .start) : s.Steps kind .start := by
  cases h.phase with
  | init hfsm hstate heps hsdeps hbase hq hsignals =>
      refine ⟨{ s with entered := true, state := .active, fsm := .active }, ?_, h.listed, ?_⟩
      · simp only [next, start, gridAssert_pos hfsm, hstate, ok_bind, pure_eq_ok]
      · exact .running rfl (Or.inl rfl) hbase (by simp [hq]) ⟨hsignals.rcvfd, hsignals.sndfd⟩
  | running hfsm => exact absurd (hen.1.symm.trans hfsm) (by simp)
  | stoppingEps hfsm => exact absurd (hen.1.symm.trans hfsm) (by simp)
  | stopping hfsm => exact absurd (hen.1.symm.trans hfsm) (by simp)
  | fini hfsm => exact absurd (hen.1.symm.trans hfsm) (by simp)

theorem signal_flag {fd : Efd} {flag : Bool} (hopen : fd.opened = true)
    (hflag : fd.signaled = flag) : (if flag = false then fd.signal else fd).opened = true ∧
      (if flag = false then fd.signal else fd).signaled = true := by
  cases flag with
  | false => simp [Efd.signal, hopen]
  | true => exact ⟨hopen, hflag⟩

theorem Inv.steps_zombify (h : s.Inv kind) (hen : s.Enabled .zombify) (hfits : s.Fits .zombify) :
    s.Steps kind .zombify := by
  cases h.phase with
  | init hfsm => exact absurd hfsm hen.1
  | running hfsm hstate hbase hq hsignals =>
      have hactive : s.state = .active := by
        rcases hfits with hfits | hfits
        · exact hfits
        · rcases hstate with hstate | hstate <;> exact absurd (hfits.symm.trans hstate) (by simp)
      refine ⟨actionZombify kind { s with entered := true }, ?_, h.listed,
        .running hfsm (Or.inr rfl) hbase hq ⟨fun hno => ?_, fun hno => ?_⟩⟩
      · simp only [next, zombify, hfsm, hactive]
      · have hset := signal_flag (hsignals.rcvfd hno).1 (hsignals.rcvfd hno).2
        simpa only [actionZombify, hno, and_true] using hset
      · have hset := signal_flag (hsignals.sndfd hno).1 (hsignals.sndfd hno).2
        simpa only [actionZombify, hno, and_true] using hset
  | stoppingEps hfsm hstate hbase hq =>
      refine ⟨{ s with entered := true }, ?_, h.listed, .stoppingEps hfsm hstate hbase hq⟩
      simp only [next, zombify, hfsm, hstate]
  | stopping hfsm hstate =>
      rcases hfits with hfits | hfits <;> exact absurd (hfits.symm.trans hstate) (by simp)
  | fini hfsm hstate =>
      rcases hfits with hfits | hfits <;> exact absurd (hfits.symm.trans hstate) (by simp)

theorem Inv.steps_stop (h : s.Inv kind) (hen : s.Enabled .stop) : s.Steps kind .stop := by
  have hinactive : s.fsm ≠ .active → (({ s with entered := true } : Sock).Phase kind) →
      s.Steps kind .stop := by
    intro hfsm hphase
    refine ⟨{ s with entered := true }, ?_, h.listed, hphase⟩
    simp only [next, stop, if_neg hfsm]
  cases h.phase with
  | init hfsm => exact absurd hfsm hen.1
  | running hfsm hstate hbase hq hsignals =>
      have hmove : Listed [] (s.sdeps ++ s.eps.map Ep.stop) s.eid s.events :=
        h.listed.move (by simp)
      obtain ⟨s', hfinish, hinv⟩ := finish2_spec kind { s with
        entered := true, fsm := .stopping
        rcvfd := if kind.norecv then s.rcvfd else s.rcvfd.stop
        sndfd := if kind.nosend then s.sndfd else s.sndfd.stop
        eps := [], sdeps := s.sdeps ++ s.eps.map Ep.stop, state := .stoppingEps }
        hmove rfl rfl hbase hq (fun _ => rfl)
      refine ⟨s', ?_, hinv⟩
      simp only [next, stop, hfsm, if_true, gridAssert_pos hstate, ok_bind]
      exact hfinish
  | stoppingEps hfsm hstate hbase hq =>
      exact hinactive (by rw [hfsm]; simp) (.stoppingEps hfsm hstate hbase hq)
  | stopping hfsm hstate hq =>
      exact hinactive (by rw [hfsm]; simp) (.stopping hfsm hstate hq)
  | fini hfsm hstate hbase hq =>
      exact hinactive (by rw [hfsm]; simp) (.fini hfsm hstate hbase hq)

theorem Inv.steps_addEp (h : s.Inv kind) (hen : s.Enabled .addEp) : s.Steps kind .addEp := by
  refine ⟨_, rfl, h.listed.add, ?_⟩
  cases h.phase with
  | init hfsm => exact absurd hfsm hen.1
  | running hfsm hstate hbase hq hsignals =>
      exact .running hfsm hstate hbase hq ⟨hsignals.rcvfd, hsignals.sndfd⟩
  | stoppingEps hfsm hstate hbase hq => exact .stoppingEps hfsm hstate hbase hq
  | stopping hfsm hstate hq => exact .stopping hfsm hstate hq
  | fini hfsm hstate hbase hq => exact .fini hfsm hstate hbase hq

theorem perm_eraseP_find {p : Ep → Bool} {l : List Ep} {ep : Ep} (h : l.find? p = some ep) :
    l.Perm (l.eraseP p ++ [ep]) := by
  induction l with
  | nil => exact absurd h (by simp)
  | cons x l ih =>
      cases hp : p x with
      | true =>
          obtain rfl : x = ep := by simpa [List.find?_cons_of_pos hp] using h
          rw [List.eraseP_cons_of_pos hp]
          exact (List.perm_append_singleton x l).symm
      | false =>
          rw [List.find?_cons_of_neg (by simp [hp])] at h
          rw [List.eraseP_cons_of_neg (by simp [hp])]
          exact (ih h).cons x

theorem Inv.steps_rmEp {n : Nat} (h : s.Inv kind) : s.Steps kind (.rmEp n) := by
  cases hfind : s.eps.find? (·.eid = n) with
  | none =>
      refine ⟨{ s with entered := true }, ?_, h.listed, ?_⟩
      · simp only [next, rmEp, hfind, Option.getD_none]
      · exact h.phase.of_lists rfl rfl rfl rfl ⟨rfl, rfl, rfl, rfl⟩
          (fun heps hsdeps => ⟨heps, hsdeps, rfl⟩)
  | some ep =>
      have hmem := List.mem_of_find?_eq_some hfind
      refine ⟨{ s with
        entered := true, eps := s.eps.eraseP (·.eid = n), sdeps := s.sdeps ++ [ep.stop] },
        ?_, ?_, ?_⟩
      · simp only [next, rmEp, hfind, Option.getD_some]
      · exact h.listed.move (perm_eraseP_find hfind)
      · refine h.phase.of_lists rfl rfl rfl rfl ⟨rfl, rfl, rfl, rfl⟩ (fun heps _ => ?_)
        rw [heps] at hmem
        exact absurd hmem (by simp)

/-- An endpoint of a list keeps the lists from being empty. -/
theorem not_both_nil {p : Prop} {ep : Ep} (hep : ep ∈ s.eps ++ s.sdeps) (heps : s.eps = [])
    (hsdeps : s.sdeps = []) : p := by
  rw [heps, hsdeps] at hep
  exact absurd hep (by simp)

theorem Inv.steps_epReports {n : Nat} (h : s.Inv kind) (hen : s.Enabled (.epReports n)) :
    s.Steps kind (.epReports n) := by
  obtain ⟨ep, hep, rfl, hstate, hreported⟩ := hen
  obtain ⟨hin, hlisted⟩ := h.listed.report hep hstate hreported
  have hfind := h.listed.find? hep
  refine ⟨({ s with entered := true, events := s.events ++ [.epAction ep.eid] } : Sock).setEp
    { ep with reported := true }, ?_, hlisted, ?_⟩
  · simp only [next, epReports, findEp, hfind, raise, setEp]
    rw [raiseEvent_ok (by simpa using hin)]
    rfl
  · exact h.phase.of_lists rfl rfl rfl (by simp [setEp]) ⟨rfl, rfl, rfl, rfl⟩
      (not_both_nil hep)

theorem Inv.steps_pipeEvent {n pipe : Nat} {out : Bool} (h : s.Inv kind)
    (hen : s.Enabled (.pipeEvent n pipe out)) : s.Steps kind (.pipeEvent n pipe out) := by
  obtain ⟨⟨ep, hep, heid, hreported⟩, hin⟩ := hen
  refine ⟨{ s with entered := true, events := s.events ++ [.pipe n pipe out] }, ?_,
    h.listed.raisePipe pipe out ⟨ep, hep, heid, hreported⟩, ?_⟩
  · simp only [next, raise]
    rw [raiseEvent_ok (by simpa using hin)]
    rfl
  · exact h.phase.of_lists rfl rfl rfl (by simp) ⟨rfl, rfl, rfl, rfl⟩ (not_both_nil hep)

theorem Inv.steps_sockbaseReports (h : s.Inv kind) (hen : s.Enabled .sockbaseReports) :
    s.Steps kind .sockbaseReports := by
  have hbase : s.sockbase = .stopping := hen
  cases h.phase with
  | init _ _ _ _ hbase' => exact absurd (hbase.symm.trans hbase') (by simp)
  | running _ _ hbase' => exact absurd (hbase.symm.trans hbase') (by simp)
  | stoppingEps _ _ hbase' => exact absurd (hbase.symm.trans hbase') (by simp)
  | stopping hfsm hstate hq =>
      have hnone : s.events.count .stopped = 0 := by
        rcases hq with ⟨-, hnone⟩ | ⟨hbase', -⟩
        · exact hnone
        · exact absurd (hbase.symm.trans hbase') (by simp)
      refine ⟨{ s with
        entered := true, sockbase := .reported, events := s.events ++ [.stopped] }, ?_,
        h.listed.congr fun e => filter_about_stopped s.events e,
        .stopping hfsm hstate (Or.inr ⟨rfl, by simp [hnone]⟩)⟩
      simp only [next, raise]
      rw [raiseEvent_ok (by simpa using List.count_eq_zero.mp hnone)]
      rfl
  | fini _ _ hbase' => exact absurd (hbase.symm.trans hbase') (by simp)

/-! ## Events -/

theorem Phase.fsm_active (h : s.Phase kind) (hstate : s.state = .active) : s.fsm = .active := by
  cases h with
  | init _ hstate' => exact absurd (hstate.symm.trans hstate') (by simp)
  | running hfsm => exact hfsm
  | stoppingEps _ hstate' => exact absurd (hstate.symm.trans hstate') (by simp)
  | stopping _ hstate' => exact absurd (hstate.symm.trans hstate') (by simp)
  | fini _ hstate' => exact absurd (hstate.symm.trans hstate') (by simp)

theorem Phase.fsm_stopping (h : s.Phase kind) (hstate : s.state = .stoppingEps) :
    s.fsm = .stopping := by
  cases h with
  | init _ hstate' => exact absurd (hstate.symm.trans hstate') (by simp)
  | running _ hstate' =>
      rcases hstate' with hstate' | hstate' <;> exact absurd (hstate.symm.trans hstate') (by simp)
  | stoppingEps hfsm => exact hfsm
  | stopping hfsm => exact hfsm
  | fini hfsm => exact hfsm

theorem Phase.stoppingEps_running (h : s.Phase kind) (hstate : s.state = .stoppingEps) :
    s.sockbase = .running ∧ s.events.count .stopped = 0 := by
  cases h with
  | init _ hstate' => exact absurd (hstate.symm.trans hstate') (by simp)
  | running _ hstate' =>
      rcases hstate' with hstate' | hstate' <;> exact absurd (hstate.symm.trans hstate') (by simp)
  | stoppingEps _ _ hbase hq => exact ⟨hbase, hq⟩
  | stopping _ hstate' => exact absurd (hstate.symm.trans hstate') (by simp)
  | fini _ hstate' => exact absurd (hstate.symm.trans hstate') (by simp)

theorem deliver_active {e : SockEvent} {events : List SockEvent} (hq : s.events = e :: events)
    (hfsm : s.fsm = .active) (he : ∀ eid, e ≠ .epAction eid) :
    s.next kind .deliver = ({ s with events := events } : Sock).handler e := by
  cases e with
  | epAction eid => exact absurd rfl (he eid)
  | epStopped eid => simp only [next, hq, process, hfsm, reduceCtorEq, if_false]
  | pipe eid pipe out => simp only [next, hq, process, hfsm, reduceCtorEq, if_false]
  | stopped => simp only [next, hq, process, hfsm, reduceCtorEq, if_false]

theorem deliver_stopping {e : SockEvent} {events : List SockEvent} (hq : s.events = e :: events)
    (hfsm : s.fsm = .stopping) (he : ∀ eid, e ≠ .epAction eid) :
    s.next kind .deliver = ({ s with events := events } : Sock).shutdown kind e := by
  cases e with
  | epAction eid => exact absurd rfl (he eid)
  | epStopped eid => simp only [next, hq, process, hfsm, if_true]
  | pipe eid pipe out => simp only [next, hq, process, hfsm, if_true]
  | stopped => simp only [next, hq, process, hfsm, if_true]

theorem Inv.steps_pipe {events : List SockEvent} {n pipe : Nat} {out : Bool} (h : s.Inv kind)
    (hq : s.events = .pipe n pipe out :: events)
    (hfits : s.EventFits (.pipe n pipe out)) : s.Steps kind .deliver := by
  have hlisted := h.listed
  rw [hq] at hlisted
  obtain ⟨ep, hep, -⟩ := hlisted.exists_of_about List.mem_cons_self
    (by simp [about] : about n (.pipe n pipe out) = true)
  refine ⟨{ s with events := events }, ?_, hlisted.popPipe, ?_⟩
  · rcases hfits with hstate | hstate
    · rw [deliver_active hq (h.phase.fsm_active hstate) (by simp)]
      simp only [handler, hstate]
    · rw [deliver_stopping hq (h.phase.fsm_stopping hstate) (by simp)]
      simp only [shutdown, hstate]
  · exact h.phase.of_lists rfl rfl rfl (by simp [hq]) ⟨rfl, rfl, rfl, rfl⟩
      (not_both_nil hep)

theorem Inv.steps_epAction {events : List SockEvent} {n : Nat} (h : s.Inv kind)
    (hq : s.events = .epAction n :: events) : s.Steps kind .deliver := by
  have hlisted := h.listed
  rw [hq] at hlisted
  obtain ⟨ep, hmem, rfl, hfsm, hstate, hin, hlisted'⟩ := hlisted.action
  have hep : ep ∈ s.eps ++ s.sdeps := List.mem_append_right _ hmem
  have hfind := h.listed.find? hep
  refine ⟨({ s with events := events ++ [.epStopped ep.eid] } : Sock).setEp
    { ep with state := .idle, fsm := .idle }, ?_, hlisted', ?_⟩
  · simp only [next, hq, process, findEp, hfind, Ep.actionStopped, hfsm, hstate, ok_bind, raise,
      setEp]
    rw [raiseEvent_ok (by simpa using hin)]
    rfl
  · exact h.phase.of_lists rfl rfl rfl (by simp [setEp, hq]) ⟨rfl, rfl, rfl, rfl⟩
      (not_both_nil hep)

/-- An endpoint whose STOPPED event comes next is freed. -/
theorem Inv.freeEp_spec {events : List SockEvent} {n : Nat} (h : s.Inv kind)
    (hq : s.events = .epStopped n :: events) :
    ({ s with events := events } : Sock).freeEp n = .ok { s with
      events := events, sdeps := s.sdeps.eraseP (·.eid = n), freed := s.freed ++ [n] } ∧
    Listed s.eps (s.sdeps.eraseP (·.eid = n)) s.eid events := by
  have hlisted := h.listed
  rw [hq] at hlisted
  obtain ⟨ep, -, hfind, hidle, hfsmIdle, hin, hlisted'⟩ := hlisted.free
  refine ⟨?_, hlisted'⟩
  simp only [freeEp, hfind]
  rw [gridAssert_pos hidle, ok_bind, gridAssert_pos ⟨hfsmIdle, hin⟩]
  rfl

theorem Inv.steps_epStopped {events : List SockEvent} {n : Nat} (h : s.Inv kind)
    (hq : s.events = .epStopped n :: events) (hfits : s.EventFits (.epStopped n)) :
    s.Steps kind .deliver := by
  obtain ⟨hfree, hlisted⟩ := h.freeEp_spec hq
  have hstopped : events.count .stopped = s.events.count .stopped := by simp [hq]
  rcases hfits with hstate | ⟨hstate, hleft⟩
  · refine ⟨{ s with
      events := events, sdeps := s.sdeps.eraseP (·.eid = n), freed := s.freed ++ [n] }, ?_,
      hlisted, ?_⟩
    · rw [deliver_active hq (h.phase.fsm_active hstate) (by simp), ← hfree]
      simp only [handler, hstate]
    · refine h.phase.of_lists rfl rfl rfl hstopped ⟨rfl, rfl, rfl, rfl⟩ fun heps hsdeps => ?_
      have hnone := h.listed.absent n (by simp [heps, hsdeps])
      rw [hq, List.filter_cons_of_pos (by simp [about])] at hnone
      exact absurd hnone (by simp)
  · have hfsm := h.phase.fsm_stopping hstate
    have hlast : s.sdeps.eraseP (·.eid = n) = [] → s.eps = [] := by
      intro hnil
      rcases hleft with heps | ⟨ep', hep', hne⟩
      · exact heps
      · have hmem := (List.mem_eraseP_of_neg (p := fun x => decide (x.eid = n))
          (by simpa using hne)).mpr hep'
        rw [hnil] at hmem
        exact absurd hmem (by simp)
    obtain ⟨s', hfinish, hinv⟩ := finish2_spec kind { s with
      events := events, sdeps := s.sdeps.eraseP (·.eid = n), freed := s.freed ++ [n] }
      hlisted hfsm hstate (h.phase.stoppingEps_running hstate).1
      (hstopped.trans (h.phase.stoppingEps_running hstate).2) hlast
    refine ⟨s', ?_, hinv⟩
    rw [deliver_stopping hq hfsm (by simp), ← hfinish, ← ok_bind _ (finish2 kind), ← hfree]
    simp only [shutdown, hstate]

theorem Inv.steps_stopped {events : List SockEvent} (h : s.Inv kind)
    (hq : s.events = .stopped :: events) : s.Steps kind .deliver := by
  have hone : s.events.count .stopped = events.count .stopped + 1 := by simp [hq]
  cases h.phase with
  | init _ _ _ _ _ hnone => exact absurd (hq.symm.trans hnone) (by simp)
  | running _ _ _ hnone => omega
  | stoppingEps _ _ _ hnone => omega
  | stopping hfsm hstate hbase =>
      refine ⟨({ s with events := events } : Sock).finish1, ?_, h.listed.congr fun e => ?_,
        .fini hfsm rfl rfl ?_⟩
      · rw [deliver_stopping hq hfsm (by simp)]
        simp only [shutdown, hstate]
        rfl
      · rw [hq, List.filter_cons_of_neg (by simp [about])]
        rfl
      · show events.count .stopped = 0
        rcases hbase with ⟨-, hnone⟩ | ⟨-, hnone⟩ <;> omega
  | fini _ _ _ hnone => omega

theorem Inv.steps_deliver (h : s.Inv kind) (hen : s.Enabled .deliver) (hfits : s.Fits .deliver) :
    s.Steps kind .deliver := by
  cases hq : s.events with
  | nil => exact absurd hq hen
  | cons e events =>
      have hfit : s.EventFits e := hfits e (by simp [hq])
      cases e with
      | epAction eid => exact h.steps_epAction hq
      | epStopped eid => exact h.steps_epStopped hq hfit
      | pipe eid pipe out => exact h.steps_pipe hq hfit
      | stopped => exact h.steps_stopped hq

/-! ## Leaving the context -/

/-- A descriptor is made to show what can be done. -/
theorem adjust_spec {fd : Efd} {no flag : Bool} (can : Bool)
    (h : no = false → fd.opened = true ∧ fd.signaled = flag) :
    ∃ fd' flag', adjust no can fd flag = .ok (fd', flag') ∧
      (no = false → fd'.opened = true ∧ fd'.signaled = flag') := by
  cases no with
  | true => exact ⟨fd, flag, rfl, by simp⟩
  | false =>
      obtain ⟨hopen, hflag⟩ := h rfl
      cases can with
      | true =>
          cases flag with
          | true => exact ⟨fd, true, rfl, h⟩
          | false => exact ⟨fd.signal, true, rfl, fun _ => by simp [Efd.signal, hopen]⟩
      | false =>
          cases flag with
          | true =>
              refine ⟨{ fd with signaled := false }, false, ?_, fun _ => ⟨hopen, rfl⟩⟩
              simp [adjust, Efd.unsignal, hopen, hflag]
          | false => exact ⟨fd, false, rfl, h⟩

theorem Inv.steps_leave {canRecv canSend : Bool} (h : s.Inv kind) :
    s.Steps kind (.leave canRecv canSend) := by
  by_cases hstate : s.state = .active
  · cases h.phase with
    | init _ hstate' => exact absurd (hstate.symm.trans hstate') (by simp)
    | running hfsm _ hbase hq hsignals =>
        obtain ⟨rcvfd, flagIn, hrcvfd, hrcv⟩ := adjust_spec canRecv hsignals.rcvfd
        obtain ⟨sndfd, flagOut, hsndfd, hsnd⟩ := adjust_spec canSend hsignals.sndfd
        refine ⟨{ s with
          entered := false, rcvfd := rcvfd, flagIn := flagIn
          sndfd := sndfd, flagOut := flagOut },
          ?_, h.listed, .running hfsm (Or.inl hstate) hbase hq ⟨hrcv, hsnd⟩⟩
        simp only [next, onleave, ne_eq, hstate, not_true_eq_false, if_false, hrcvfd, hsndfd,
          ok_bind, pure_eq_ok]
    | stoppingEps _ hstate' => exact absurd (hstate.symm.trans hstate') (by simp)
    | stopping _ hstate' => exact absurd (hstate.symm.trans hstate') (by simp)
    | fini _ hstate' => exact absurd (hstate.symm.trans hstate') (by simp)
  · refine ⟨{ s with entered := false }, ?_, h.listed, ?_⟩
    · simp only [next, onleave, ne_eq, hstate, not_false_eq_true, if_true, ok_bind, pure_eq_ok]
    · exact h.phase.of_lists rfl rfl rfl rfl ⟨rfl, rfl, rfl, rfl⟩
        (fun heps hsdeps => ⟨heps, hsdeps, rfl⟩)

/-! ## Runs -/

/-- Every step that fits can be taken. -/
theorem Inv.steps {l : Label} (h : s.Inv kind) (hen : s.Enabled l) (hfits : s.Fits l) :
    s.Steps kind l := by
  cases l with
  | start => exact h.steps_start hen
  | zombify => exact h.steps_zombify hen hfits
  | stop => exact h.steps_stop hen
  | addEp => exact h.steps_addEp hen
  | rmEp eid => exact h.steps_rmEp
  | epReports eid => exact h.steps_epReports hen
  | pipeEvent eid pipe out => exact h.steps_pipeEvent hen
  | sockbaseReports => exact h.steps_sockbaseReports hen
  | deliver => exact h.steps_deliver hen hfits
  | leave canRecv canSend => exact h.steps_leave

theorem inv_init : ({} : Sock).Inv kind where
  listed := {
    nodup := List.nodup_nil
    fresh := fun _ hep => absurd hep (by simp)
    live := fun _ hep => absurd hep (by simp)
    leaving := fun _ hep => absurd hep (by simp)
    absent := fun _ _ => rfl }
  phase := .init rfl rfl rfl rfl rfl rfl ⟨fun _ => ⟨rfl, rfl⟩, fun _ => ⟨rfl, rfl⟩⟩

theorem Inv.of_reachable (hs : ((system kind).restrict Fits).Reachable s) : s.Inv kind := by
  refine hs.invariant ?_ ?_
  · intro s hinit
    rw [show s = {} from hinit]
    exact inv_init
  · intro s l s' _ hinv ⟨hfits, hen, hnext⟩
    obtain ⟨s'', hnext', hinv'⟩ := hinv.steps hen hfits
    rw [hnext] at hnext'
    exact Except.ok.inj hnext' ▸ hinv'

/-- A zombie, a socket that is stopping and one that has stopped fail a check on every
event of a pipe or an endpoint. -/
theorem Inv.fits_deliver {s' : Sock} (h : s.Inv kind) (hnext : s.next kind .deliver = .ok s') :
    s.Fits .deliver := by
  intro e he
  obtain ⟨events, hq⟩ : ∃ events, s.events = e :: events := List.head?_eq_some_iff.mp he
  by_contra hno
  have hzombie : s.state ≠ .active → s.state ≠ .stoppingEps →
      (∀ eid, e ≠ .epAction eid) → e ≠ .stopped → False := by
    intro hactive hstopping haction hstopped
    cases h.phase with
    | init _ _ _ _ _ hnone => exact absurd (hq.symm.trans hnone) (by simp)
    | running hfsm hstate =>
        rw [deliver_active hq hfsm haction] at hnext
        simp only [handler, hstate.resolve_left hactive, reduceCtorEq] at hnext
    | stoppingEps _ hstate => exact hstopping hstate
    | stopping hfsm hstate =>
        rw [deliver_stopping hq hfsm haction] at hnext
        simp [shutdown, hstate, gridAssert, hstopped] at hnext
    | fini hfsm hstate =>
        rw [deliver_stopping hq hfsm haction] at hnext
        simp only [shutdown, hstate, reduceCtorEq] at hnext
  cases e with
  | epAction eid => exact hno trivial
  | stopped => exact hno trivial
  | pipe eid pipe out =>
      exact hzombie (fun h => hno (Or.inl h)) (fun h => hno (Or.inr h)) (by simp) (by simp)
  | epStopped eid =>
      by_cases hstate : s.state = .stoppingEps
      · -- the last endpoint that was shutting down has gone, and others are left
        have hleft : ¬ (s.eps = [] ∨ ∃ ep ∈ s.sdeps, ep.eid ≠ eid) :=
          fun hleft => hno (Or.inr ⟨hstate, hleft⟩)
        have hnil : s.sdeps.eraseP (·.eid = eid) = [] := by
          refine List.eq_nil_iff_forall_not_mem.mpr fun x hx => ?_
          exact hleft (Or.inr ⟨x, List.mem_of_mem_eraseP hx, h.listed.eid_ne_of_mem_eraseP x hx⟩)
        rw [deliver_stopping hq (h.phase.fsm_stopping hstate) (by simp)] at hnext
        simp only [shutdown, hstate] at hnext
        rw [← hstate, (h.freeEp_spec hq).1, ok_bind] at hnext
        simp [finish2, hnil, gridAssert, show s.eps ≠ [] from fun h => hleft (Or.inl h)] at hnext
      · exact hzombie (fun h => hno (Or.inl h)) hstate (by simp) (by simp)

theorem Inv.fits_zombify {s' : Sock} (h : s.Inv kind) (hen : s.Enabled .zombify)
    (hnext : s.next kind .zombify = .ok s') : s.Fits .zombify := by
  cases h.phase with
  | init hfsm => exact absurd hfsm hen.1
  | running hfsm hstate =>
      rcases hstate with hstate | hstate
      · exact Or.inl hstate
      · simp only [next, zombify, hfsm, hstate, reduceCtorEq] at hnext
  | stoppingEps _ hstate => exact Or.inr hstate
  | stopping hfsm hstate => simp only [next, zombify, hfsm, hstate, reduceCtorEq] at hnext
  | fini hfsm hstate => simp only [next, zombify, hfsm, hstate, reduceCtorEq] at hnext

/-- As long as the steps of a run fit, no check of the machine of the socket, nor of those
of its endpoints, fails; and a step that does not fit fails one. -/
theorem lifecycle_sound (kind : SockKind) (s : Sock) (l : Label)
    (hs : ((system kind).restrict Fits).Reachable s) (hen : s.Enabled l) :
    (∃ s', s.next kind l = .ok s') ↔ s.Fits l := by
  have hinv := Inv.of_reachable hs
  constructor
  · rintro ⟨s', hnext⟩
    cases l with
    | zombify => exact hinv.fits_zombify hen hnext
    | deliver => exact hinv.fits_deliver hnext
    | start => trivial
    | stop => trivial
    | addEp => trivial
    | rmEp eid => trivial
    | epReports eid => trivial
    | pipeEvent eid pipe out => trivial
    | sockbaseReports => trivial
    | leave canRecv canSend => trivial
  · intro hfits
    obtain ⟨s', hnext, -⟩ := hinv.steps hen hfits
    exact ⟨s', hnext⟩

/-- A socket that can send and receive, and whose type stops at once. -/
def plainKind : SockKind := ⟨false, false, false⟩

/-- The runs computed from the beginning. -/
def run (kind : SockKind) (labels : List Label) : Option Sock :=
  System.follow (tryNext kind) {} labels

/-- Those whose steps fit. -/
def fittingRun (kind : SockKind) (labels : List Label) : Option Sock :=
  System.follow (fun s l => if s.Fits l then s.tryNext kind l else none) {} labels

theorem run_reachable {labels : List Label} (h : run kind labels = some s) :
    (system kind).Reachable s :=
  (System.Reachable.start rfl).follow (fun _ _ _ => tryNext_step) h

theorem fittingRun_reachable {labels : List Label} (h : fittingRun kind labels = some s) :
    ((system kind).restrict Fits).Reachable s := by
  refine (System.Reachable.start rfl).follow (fun s l s' hnext => ?_) h
  split at hnext
  · rename_i hfits
    exact ⟨hfits, tryNext_step hnext⟩
  · exact absurd hnext (by simp)

/-- The endpoint of a socket stops after `grid_close` was called. -/
theorem lifecycle_sound_close : ∃ s : Sock, s.state = .stoppingEps ∧
    s.events = [.epStopped 1] ∧ ∃ s', s.next plainKind .deliver = .ok s' := by
  have hrun : (fittingRun plainKind
      [.start, .leave false true, .addEp, .pipeEvent 1 0 true, .deliver, .leave false true,
        .stop, .leave false true, .pipeEvent 1 0 false, .deliver, .epReports 1, .deliver]).any
      (fun s => s.state = .stoppingEps ∧ s.events = [.epStopped 1] ∧ s.Fits .deliver) =
      true := by decide +kernel
  obtain ⟨s, hfollow, hend⟩ := (Option.any_eq_true _ _).mp hrun
  obtain ⟨hstate, hq, hfits⟩ := of_decide_eq_true hend
  have hen : s.Enabled .deliver := by
    show s.events ≠ []
    simp [hq]
  exact ⟨s, hstate, hq,
    (lifecycle_sound plainKind s .deliver (fittingRun_reachable hfollow) hen).mpr hfits⟩

/-- A run after which a step fails. -/
theorem exists_failing (labels : List Label) {l : Label} {a : Abort}
    (hrun : (run kind labels).any (fun s => s.Enabled l ∧ s.next kind l = .error a) = true) :
    ∃ s, (system kind).Reachable s ∧ s.Enabled l ∧ s.next kind l = .error a := by
  obtain ⟨s, hfollow, hend⟩ := (Option.any_eq_true _ _).mp hrun
  exact ⟨s, run_reachable hfollow, of_decide_eq_true hend⟩

/-- A pipe of a socket that was zombified can be read from; a zombie is zombified again; a
socket is zombified that was closed; and one is closed while an endpoint shuts down, and
another endpoint is added. -/
theorem not_lifecycle_sound :
    (∃ s, (system plainKind).Reachable s ∧ s.Enabled .deliver ∧
      s.next plainKind .deliver = .error .badState) ∧
    (∃ s, (system plainKind).Reachable s ∧ s.Enabled .zombify ∧
      s.next plainKind .zombify = .error .badState) ∧
    ∃ s, (system plainKind).Reachable s ∧ s.Enabled .deliver ∧
      s.next plainKind .deliver = .error .assertion := by
  refine ⟨exists_failing [.start, .leave false true, .addEp, .leave false true, .zombify,
    .leave false true, .pipeEvent 1 0 false] ?_, ?_, ?_⟩
  · decide +kernel
  · exact exists_failing [.start, .leave false true, .stop, .leave false true] (by decide +kernel)
  · exact exists_failing [.start, .leave false true, .addEp, .leave false true, .stop,
      .leave false true, .addEp, .epReports 1, .deliver] (by decide +kernel)

end GridMq.Core.Sock
