import GridMq.Core.SockUse

set_option autoImplicit false

/-!
# Runs of the threads that use a socket

Where every endpoint is that was ever added, with the holds on the socket, and what
`grid_sock_term` finds when it completes.
-/

namespace GridMq.Core

open GridMq.Aio GridMq.Library

namespace SockUse

variable {kind : SockKind} {s : SockUse}

/-! ## What holds in each state -/

/-- Where each endpoint is that was ever added. -/
structure Ledger (eps sdeps : List Ep) (freed stopped : List Nat) (eid : Nat) : Prop where
  once : (eps.map Ep.eid ++ (sdeps.map Ep.eid ++ freed)).Perm (List.range' 1 (eid - 1))
  stopped : stopped.Perm (sdeps.map Ep.eid ++ freed)
  pos : 0 < eid

/-- How far `grid_close` has come, with the holds on the socket. -/
inductive Progress (s : SockUse) : Prop where
  | opened (hclosing : s.closing = .opened) (hfsm : s.sock.fsm ≠ .stopping)
      (hholds : s.sock.holds = s.calls.length + 1) (hrele : s.sock.relesem = 0)
      (hidle : s.sock.fsm = .idle → s.calls = [])
  | stopped (hclosing : s.closing = .stopped) (hfsm : s.sock.fsm = .stopping)
      (hholds : s.sock.holds = s.calls.length + 2) (hrele : s.sock.relesem = 0)
  | waiting (hclosing : s.closing = .termsem ∨ s.closing = .relesem)
      (hfsm : s.sock.fsm = .stopping) (hholds : s.sock.holds = s.calls.length)
      (hrele : 0 < s.sock.relesem → s.calls = [])
  | released (hclosing : s.closing = .released) (hfsm : s.sock.fsm = .stopping)
      (hcalls : s.calls = [])
  | done (hclosing : s.closing = .done) (hfsm : s.sock.fsm = .idle) (hcalls : s.calls = [])

/-- `grid_sock_term` may go past the first semaphore. -/
def Posted (s : SockUse) : Prop :=
  0 < s.sock.termsem ∨ s.closing = .relesem ∨ s.closing = .released ∨ s.closing = .done

structure Inv (kind : SockKind) (s : SockUse) : Prop where
  sock : s.closing ≠ .done → s.sock.Inv kind
  tame : s.sock.state ≠ .zombie
  emptied : s.sock.state = .stopping ∨ s.sock.state = .fini →
    s.sock.eps = [] ∧ s.sock.sdeps = []
  ledger : Ledger s.sock.eps s.sock.sdeps s.sock.freed s.stopped s.sock.eid
  progress : s.Progress
  posted : s.Posted → s.sock.state = .fini

/-- What a step comes to. -/
def Steps (kind : SockKind) (s : SockUse) (l : Label) : Prop :=
  ∃ s', s.next kind l = .ok s' ∧ s'.Inv kind

/-! ## Steps of the environment -/

/-- A socket with something to come from an endpoint still has it in a list. -/
theorem Inv.state_of_about (h : s.Inv kind) (hclosing : s.closing ≠ .done) {e : SockEvent}
    {eid : Nat} (he : e ∈ s.sock.events) (habout : Sock.about eid e = true) :
    s.sock.state = .active ∨ s.sock.state = .stoppingEps := by
  obtain ⟨ep, hep, -⟩ := (h.sock hclosing).listed.exists_of_about he habout
  have hlists : ¬ (s.sock.eps = [] ∧ s.sock.sdeps = []) := by
    rintro ⟨heps, hsdeps⟩
    rw [heps, hsdeps] at hep
    exact absurd hep (by simp)
  cases (h.sock hclosing).phase with
  | init _ _ heps hsdeps => exact absurd ⟨heps, hsdeps⟩ hlists
  | running _ hstate => exact Or.inl (hstate.resolve_right h.tame)
  | stoppingEps _ hstate => exact Or.inr hstate
  | stopping _ hstate => exact absurd (h.emptied (Or.inl hstate)) hlists
  | fini _ hstate => exact absurd (h.emptied (Or.inr hstate)) hlists

theorem Inv.fits (h : s.Inv kind) {l : Sock.Label} (hen : s.Enabled (.env l))
    (htimely : s.Timely (.env l)) : s.sock.Fits l := by
  obtain ⟨hclosing, henv, -⟩ := hen
  cases l with
  | zombify => exact absurd henv (by simp [isEnv])
  | deliver =>
      intro e he
      have hmem : e ∈ s.sock.events := List.mem_of_mem_head? he
      cases e with
      | pipe eid pipe out =>
          exact h.state_of_about hclosing hmem
            (by simp [Sock.about] : Sock.about eid (.pipe eid pipe out) = true)
      | epStopped eid =>
          rcases h.state_of_about hclosing hmem (by simp [Sock.about] :
            Sock.about eid (.epStopped eid) = true) with hstate | hstate
          · exact Or.inl hstate
          · exact Or.inr ⟨hstate, htimely _ he hstate⟩
      | epAction eid => trivial
      | stopped => trivial
  | start => trivial
  | stop => trivial
  | addEp => trivial
  | rmEp eid => trivial
  | epReports eid => trivial
  | pipeEvent eid pipe out => trivial
  | sockbaseReports => trivial
  | leave canRecv canSend => trivial

/-- The identifiers of a list without an endpoint. -/
theorem perm_eid_eraseP {l : List Ep} {n : Nat} (h : ∃ ep ∈ l, ep.eid = n) :
    (l.map Ep.eid).Perm ((l.eraseP (·.eid = n)).map Ep.eid ++ [n]) := by
  obtain ⟨ep, hep, heid⟩ := h
  obtain ⟨found, hfound⟩ : ∃ found, l.find? (·.eid = n) = some found :=
    Option.isSome_iff_exists.mp (List.find?_isSome.mpr ⟨ep, hep, by simpa using heid⟩)
  have hn : found.eid = n := by simpa using List.find?_some hfound
  have hperm := (Sock.perm_eraseP_find hfound).map Ep.eid
  rwa [List.map_append, List.map_singleton, hn] at hperm

theorem Ledger.moved {s s' : Sock} {stopped : List Nat} {n : Nat}
    (h : Ledger s.eps s.sdeps s.freed stopped n) (hmoved : Moved s s') :
    Ledger s'.eps s'.sdeps s'.freed stopped n := by
  cases hmoved with
  | none heps hsdeps hfreed =>
      exact ⟨by rw [heps, hsdeps, hfreed]; exact h.once, by rw [hsdeps, hfreed]; exact h.stopped,
        h.pos⟩
  | freed n heps hmem hsdeps hfreed =>
      have hperm : (s'.sdeps.map Ep.eid ++ s'.freed).Perm (s.sdeps.map Ep.eid ++ s.freed) := by
        rw [hsdeps, hfreed]
        refine List.Perm.trans ?_ (List.Perm.append_right _ (perm_eid_eraseP hmem).symm)
        rw [List.append_assoc]
        exact List.Perm.append_left _ List.perm_append_comm
      refine ⟨?_, h.stopped.trans hperm.symm, h.pos⟩
      rw [heps]
      exact (List.Perm.append_left _ hperm).trans h.once

theorem Came.tame {s s' : Sock} (h : Came s s') (htame : s.state ≠ .zombie) :
    s'.state ≠ .zombie := by
  cases h with
  | none hstate => rw [hstate]; exact htame
  | started hstate => simp [hstate]
  | emptied _ hstate => simp [hstate]
  | gone _ hstate => simp [hstate]
  | ended _ hstate => simp [hstate]

theorem Moved.nil {s s' : Sock} (h : Moved s s') (hnil : s.eps = [] ∧ s.sdeps = []) :
    s'.eps = [] ∧ s'.sdeps = [] := by
  cases h with
  | none heps hsdeps =>
      rw [hnil.1, List.map_nil, List.map_eq_nil_iff] at heps
      rw [hnil.2, List.map_nil, List.map_eq_nil_iff] at hsdeps
      exact ⟨heps, hsdeps⟩
  | freed n _ hmem =>
      obtain ⟨ep, hep, -⟩ := hmem
      rw [hnil.2] at hep
      exact absurd hep (by simp)

theorem Effect.emptied {s s' : Sock} (h : Effect s s')
    (hold : s.state = .stopping ∨ s.state = .fini → s.eps = [] ∧ s.sdeps = [])
    (hstate : s'.state = .stopping ∨ s'.state = .fini) : s'.eps = [] ∧ s'.sdeps = [] := by
  cases h.came with
  | none hsame =>
      rw [hsame] at hstate
      exact h.moved.nil (hold hstate)
  | started hactive => rcases hstate with hstate | hstate <;> simp [hactive] at hstate
  | emptied _ _ _ heps hsdeps => exact ⟨heps, hsdeps⟩
  | gone _ _ heps hsdeps => exact ⟨heps, hsdeps⟩
  | ended hstopping => exact h.moved.nil (hold (Or.inl hstopping))

/-- A socket in the state FINI stays there. -/
theorem Effect.fini {s s' : Sock} (h : Effect s s') (hphase : s.Phase kind)
    (hstate : s.state = .fini) : s'.state = .fini := by
  cases h.came with
  | none hsame => exact hsame.trans hstate
  | started _ _ hfsm =>
      cases hphase with
      | init _ hinit => exact absurd (hinit.symm.trans hstate) (by simp)
      | running hfsm' => exact absurd (hfsm.symm.trans hfsm') (by simp)
      | stoppingEps hfsm' => exact absurd (hfsm.symm.trans hfsm') (by simp)
      | stopping hfsm' => exact absurd (hfsm.symm.trans hfsm') (by simp)
      | fini hfsm' => exact absurd (hfsm.symm.trans hfsm') (by simp)
  | emptied hold => exact absurd (hold.symm.trans hstate) (by simp)
  | gone _ hgone => exact hgone
  | ended _ hended => exact hended

theorem Inv.steps_env (h : s.Inv kind) {l : Sock.Label} (hen : s.Enabled (.env l))
    (htimely : s.Timely (.env l)) : s.Steps kind (.env l) := by
  have hclosing := hen.1
  obtain ⟨sock, hnext, hinv⟩ := (h.sock hclosing).steps hen.2.2 (h.fits hen htimely)
  have heffect := env_effect hen.2.1 hnext
  refine ⟨{ s with sock := sock }, ?_, fun _ => hinv, heffect.came.tame h.tame,
    heffect.emptied h.emptied, ?_, ?_, ?_⟩
  · simp only [next, hnext, ok_bind, pure_eq_ok]
  · show Ledger sock.eps sock.sdeps sock.freed s.stopped sock.eid
    rw [heffect.eid]
    exact h.ledger.moved heffect.moved
  · have hstopping : s.sock.fsm = .stopping → sock.fsm = .stopping := by
      intro hfsm
      rcases heffect.fsm with heq | ⟨hidle, -⟩
      · exact heq.trans hfsm
      · exact absurd (hidle.symm.trans hfsm) (by simp)
    cases h.progress with
    | opened hclosing hfsm hholds hrele hidle =>
        have hfsm' : sock.fsm ≠ .stopping := by
          rcases heffect.fsm with heq | ⟨-, heq⟩
          · rw [heq]
            exact hfsm
          · simp [heq]
        refine .opened hclosing hfsm' (heffect.holds.trans hholds) (heffect.relesem.trans hrele) ?_
        intro hidle'
        rcases heffect.fsm with heq | ⟨-, heq⟩
        · exact hidle (heq.symm.trans hidle')
        · exact absurd (heq.symm.trans hidle') (by simp)
    | stopped hclosing hfsm hholds hrele =>
        exact .stopped hclosing (hstopping hfsm) (heffect.holds.trans hholds)
          (heffect.relesem.trans hrele)
    | waiting hclosing hfsm hholds hrele =>
        refine .waiting hclosing (hstopping hfsm) (heffect.holds.trans hholds) fun hpos => ?_
        exact hrele (heffect.relesem ▸ hpos)
    | released hclosing hfsm hcalls => exact .released hclosing (hstopping hfsm) hcalls
    | done hdone => exact absurd hdone hclosing
  · intro hposted
    have hfini : s.Posted → sock.state = .fini := fun hp =>
      heffect.fini (h.sock hclosing).phase (h.posted hp)
    rcases hposted with hsem | hposted
    · cases heffect.came with
      | none _ hsame => exact hfini (Or.inl (hsame ▸ hsem))
      | started _ hsame => exact hfini (Or.inl (hsame ▸ hsem))
      | emptied _ _ hsame => exact hfini (Or.inl (hsame ▸ hsem))
      | gone _ hgone => exact hgone
      | ended _ hended => exact hended
    · exact hfini (Or.inr hposted)

/-! ## Holds -/

/-- What `grid_sock_hold`, `grid_sock_rele` and the semaphores change is not part of the
machine. -/
theorem inv_holds {s : Sock} (h : s.Inv kind) (holds termsem relesem : Nat) :
    ({ s with holds := holds, termsem := termsem, relesem := relesem } : Sock).Inv kind :=
  ⟨h.listed, h.phase.of_lists rfl rfl rfl rfl ⟨rfl, rfl, rfl, rfl⟩
    (fun heps hsdeps => ⟨heps, hsdeps, rfl⟩)⟩

/-- Only a socket that is in use can be held. -/
theorem Inv.hold_cases (h : s.Inv kind) (hfsm : s.sock.fsm ≠ .idle) (hclosing : s.closing ≠ .done) :
    (s.sock.state = .active ∧ s.sock.fsm = .active ∧
      s.sock.hold = ({ s.sock with holds := s.sock.holds + 1 }, .zero)) ∨
    s.sock.hold = (s.sock, .ebadf) := by
  cases (h.sock hclosing).phase with
  | init hidle => exact absurd hidle hfsm
  | running hactive hstate =>
      have hstate := hstate.resolve_right h.tame
      exact Or.inl ⟨hstate, hactive, by simp only [Sock.hold, hstate]⟩
  | stoppingEps _ hstate => exact Or.inr (by simp only [Sock.hold, hstate])
  | stopping _ hstate => exact Or.inr (by simp only [Sock.hold, hstate])
  | fini _ hstate => exact Or.inr (by simp only [Sock.hold, hstate])

/-- The socket is in use as long as `grid_close` was not called. -/
theorem Progress.of_active (h : s.Progress) (hfsm : s.sock.fsm = .active) :
    s.closing = .opened ∧ s.sock.holds = s.calls.length + 1 ∧ s.sock.relesem = 0 := by
  cases h with
  | opened hclosing _ hholds hrele => exact ⟨hclosing, hholds, hrele⟩
  | stopped _ hfsm' => exact absurd (hfsm.symm.trans hfsm') (by simp)
  | waiting _ hfsm' => exact absurd (hfsm.symm.trans hfsm') (by simp)
  | released _ hfsm' => exact absurd (hfsm.symm.trans hfsm') (by simp)
  | done _ hfsm' => exact absurd (hfsm.symm.trans hfsm') (by simp)

theorem Inv.closing_ne_done (h : s.Inv kind) (hfsm : s.sock.fsm ≠ .idle) : s.closing ≠ .done := by
  intro hdone
  cases h.progress with
  | opened hclosing => exact absurd (hclosing.symm.trans hdone) (by simp)
  | stopped hclosing => exact absurd (hclosing.symm.trans hdone) (by simp)
  | waiting hclosing =>
      rcases hclosing with hclosing | hclosing <;>
        exact absurd (hclosing.symm.trans hdone) (by simp)
  | released hclosing => exact absurd (hclosing.symm.trans hdone) (by simp)
  | done _ hidle => exact hfsm hidle

theorem Inv.steps_hold {op : Op} (h : s.Inv kind) (hen : s.Enabled (.hold op)) :
    s.Steps kind (.hold op) := by
  have hclosing := h.closing_ne_done hen.1
  rcases h.hold_cases hen.1 hclosing with ⟨hstate, hfsm, hhold⟩ | hhold
  · refine ⟨{ s with
      sock := { s.sock with holds := s.sock.holds + 1 }, calls := s.calls ++ [{ op := op }] },
      by simp only [next, hhold], fun _ => inv_holds (h.sock hclosing) _ _ _, h.tame, h.emptied,
      h.ledger, ?_, fun hposted => h.posted hposted⟩
    obtain ⟨hopened, hholds, hrele⟩ := h.progress.of_active hfsm
    refine .opened hopened (by simp [hfsm]) ?_ hrele fun hidle => absurd hidle hen.1
    simp only [List.length_append, List.length_singleton, hholds]
  · exact ⟨s, by simp only [next, hhold], h⟩

theorem Inv.steps_rele {i : Nat} (h : s.Inv kind) (hen : s.Enabled (.rele i)) :
    s.Steps kind (.rele i) := by
  obtain ⟨hi, hlocked⟩ := hen
  have hlength : (s.calls.eraseIdx i).length = s.calls.length - 1 :=
    List.length_eraseIdx_of_lt hi
  have hclosing : s.closing ≠ .done := fun hdone => by
    cases h.progress with
    | opened hclosing => exact absurd (hclosing.symm.trans hdone) (by simp)
    | stopped hclosing => exact absurd (hclosing.symm.trans hdone) (by simp)
    | waiting hclosing =>
        rcases hclosing with hclosing | hclosing <;>
          exact absurd (hclosing.symm.trans hdone) (by simp)
    | released hclosing => exact absurd (hclosing.symm.trans hdone) (by simp)
    | done _ _ hcalls =>
        rw [hcalls] at hi
        exact absurd hi (by simp)
  refine ⟨{ s with sock := s.sock.rele, calls := s.calls.eraseIdx i }, rfl, ?_⟩
  rw [rele_eq]
  refine ⟨fun _ => inv_holds (h.sock hclosing) _ _ _, h.tame, h.emptied, h.ledger, ?_,
    fun hposted => h.posted hposted⟩
  cases h.progress with
  | opened hopened hfsm hholds hrele hidle =>
      refine .opened hopened hfsm ?_ ?_ fun hfsm' => ?_
      · show s.sock.holds - 1 = (s.calls.eraseIdx i).length + 1
        omega
      · show (if s.sock.holds - 1 = 0 then s.sock.relesem + 1 else s.sock.relesem) = 0
        rw [if_neg (by omega)]
        exact hrele
      · rw [hidle hfsm'] at hi
        exact absurd hi (by simp)
  | stopped hstopped => exact absurd hstopped hlocked
  | waiting hwaiting hfsm hholds hrele =>
      refine .waiting hwaiting hfsm ?_ fun hpos => ?_
      · show s.sock.holds - 1 = (s.calls.eraseIdx i).length
        omega
      · by_cases hlast : s.sock.holds - 1 = 0
        · exact List.eq_nil_of_length_eq_zero (hlength.trans (by omega))
        · have hold : 0 < (if s.sock.holds - 1 = 0 then s.sock.relesem + 1
              else s.sock.relesem) := hpos
          rw [if_neg hlast] at hold
          rw [hrele hold] at hi
          exact absurd hi (by simp)
  | released _ _ hcalls =>
      rw [hcalls] at hi
      exact absurd hi (by simp)
  | done hdone => exact absurd hdone hclosing

/-! ## Endpoints added and removed -/

/-- An endpoint is added. -/
theorem Ledger.add {eps sdeps : List Ep} {freed stopped : List Nat} {n : Nat}
    (h : Ledger eps sdeps freed stopped n) :
    Ledger (eps ++ [{ eid := n }]) sdeps freed stopped (n + 1) := by
  refine ⟨?_, h.stopped, Nat.succ_pos n⟩
  have hpos := h.pos
  have hrange : List.range' 1 n = List.range' 1 (n - 1) ++ [n] := by
    obtain ⟨m, rfl⟩ := Nat.exists_eq_add_of_lt hpos
    have hconcat : List.range' 1 (m + 1) = List.range' 1 m ++ [1 + 1 * m] :=
      List.range'_concat
    simpa [Nat.add_comm] using hconcat
  rw [Nat.add_sub_cancel, hrange, List.map_append, List.append_assoc]
  refine List.Perm.trans (List.Perm.append_left _ List.perm_append_comm) ?_
  rw [← List.append_assoc]
  exact List.Perm.append_right _ h.once

/-- Some endpoints are moved to those that are shutting down. -/
theorem Ledger.move {eps sdeps stay go : List Ep} {freed stopped : List Nat} {n : Nat}
    (h : Ledger eps sdeps freed stopped n) (hperm : eps.Perm (stay ++ go)) :
    Ledger stay (sdeps ++ go.map Ep.stop) freed (stopped ++ go.map Ep.eid) n := by
  have hgo : (go.map Ep.stop).map Ep.eid = go.map Ep.eid := by
    rw [List.map_map]
    exact List.map_congr_left fun ep _ => Sock.stop_eid ep
  refine ⟨?_, ?_, h.pos⟩
  · refine List.Perm.trans ?_ h.once
    refine List.Perm.trans ?_ (List.Perm.append_right _ (hperm.map Ep.eid).symm)
    rw [List.map_append, List.map_append, hgo, List.append_assoc, List.append_assoc]
    refine List.Perm.append_left _ ?_
    rw [← List.append_assoc, ← List.append_assoc]
    exact List.Perm.append_right _ List.perm_append_comm
  · rw [List.map_append, hgo, List.append_assoc]
    refine List.Perm.trans (List.Perm.append_right _ h.stopped) ?_
    rw [List.append_assoc]
    exact List.Perm.append_left _ List.perm_append_comm

/-- The calls count, and not what they are. -/
theorem Inv.of_calls {calls : List Call} (h : s.Inv kind) (hlength : calls.length = s.calls.length) :
    ({ s with calls := calls } : SockUse).Inv kind := by
  have hnil : s.calls = [] → calls = [] := fun hcalls => by
    rw [hcalls, List.length_nil] at hlength
    exact List.eq_nil_of_length_eq_zero hlength
  refine ⟨h.sock, h.tame, h.emptied, h.ledger, ?_, h.posted⟩
  cases h.progress with
  | opened hclosing hfsm hholds hrele hidle =>
      exact .opened hclosing hfsm (by rw [hholds, hlength]) hrele fun hfsm' => hnil (hidle hfsm')
  | stopped hclosing hfsm hholds hrele =>
      exact .stopped hclosing hfsm (by rw [hholds, hlength]) hrele
  | waiting hclosing hfsm hholds hrele =>
      exact .waiting hclosing hfsm (by rw [hholds, hlength]) fun hpos => hnil (hrele hpos)
  | released hclosing hfsm hcalls => exact .released hclosing hfsm (hnil hcalls)
  | done hclosing hfsm hcalls => exact .done hclosing hfsm (hnil hcalls)

theorem Inv.fsm_ne_idle (h : s.Inv kind) (hcalls : s.calls ≠ []) : s.sock.fsm ≠ .idle := by
  intro hidle
  cases h.progress with
  | opened _ _ _ _ hnone => exact hcalls (hnone hidle)
  | stopped _ hfsm => exact absurd (hidle.symm.trans hfsm) (by simp)
  | waiting _ hfsm => exact absurd (hidle.symm.trans hfsm) (by simp)
  | released _ hfsm => exact absurd (hidle.symm.trans hfsm) (by simp)
  | done _ _ hnone => exact hcalls hnone

/-- The socket changes and the holds do not. -/
theorem Progress.of_sock {sock : Sock} {stopped : List Nat} (h : s.Progress)
    (hfsm : sock.fsm = s.sock.fsm) (hholds : sock.holds = s.sock.holds)
    (hrele : sock.relesem = s.sock.relesem) :
    ({ s with sock := sock, stopped := stopped } : SockUse).Progress := by
  cases h with
  | opened hclosing hfsm' hholds' hrele' hidle =>
      exact .opened hclosing (by rw [hfsm]; exact hfsm') (hholds.trans hholds')
        (hrele.trans hrele') fun hfsm'' => hidle (hfsm.symm.trans hfsm'')
  | stopped hclosing hfsm' hholds' hrele' =>
      exact .stopped hclosing (hfsm.trans hfsm') (hholds.trans hholds') (hrele.trans hrele')
  | waiting hclosing hfsm' hholds' hrele' =>
      exact .waiting hclosing (hfsm.trans hfsm') (hholds.trans hholds')
        fun hpos => hrele' (hrele ▸ hpos)
  | released hclosing hfsm' hcalls => exact .released hclosing (hfsm.trans hfsm') hcalls
  | done hclosing hfsm' hcalls => exact .done hclosing (hfsm.trans hfsm') hcalls

theorem Inv.add_spec {accepted : Bool} (h : s.Inv kind) (hcalls : s.calls ≠ [])
    (hentered : s.sock.entered = false)
    (hlate : accepted = true → s.sock.state ≠ .stopping ∧ s.sock.state ≠ .fini) :
    ∃ s', s.add kind accepted = .ok s' ∧ s'.Inv kind := by
  have hidle := h.fsm_ne_idle hcalls
  have hinv := h.sock (h.closing_ne_done hidle)
  cases accepted with
  | true =>
      obtain ⟨sock, hnext, hinv'⟩ := hinv.steps_addEp ⟨hidle, hentered⟩
      obtain rfl := Except.ok.inj (show Except.ok _ = Except.ok sock from hnext)
      refine ⟨{ s with sock := ({ s.sock with entered := true } : Sock).addEp }, rfl,
        fun _ => hinv', h.tame, fun hstate => ?_, h.ledger.add, h.progress.of_sock rfl rfl rfl,
        fun hposted => h.posted hposted⟩
      rcases hstate with hstate | hstate
      · exact absurd hstate (hlate rfl).1
      · exact absurd hstate (hlate rfl).2
  | false =>
      exact ⟨{ s with sock := { s.sock with entered := true } }, rfl,
        fun _ => ⟨hinv.listed, hinv.phase.of_lists rfl rfl rfl rfl ⟨rfl, rfl, rfl, rfl⟩
          (fun heps hsdeps => ⟨heps, hsdeps, rfl⟩)⟩, h.tame, h.emptied, h.ledger,
        h.progress.of_sock rfl rfl rfl, fun hposted => h.posted hposted⟩

theorem Inv.remove_spec {n : Nat} (h : s.Inv kind) (hcalls : s.calls ≠ []) :
    ∃ s', s.remove kind n = .ok s' ∧ s'.Inv kind := by
  have hidle := h.fsm_ne_idle hcalls
  obtain ⟨sock, hnext, hinv'⟩ := (h.sock (h.closing_ne_done hidle)).steps_rmEp (n := n)
  refine ⟨_, by rw [remove, hnext]; rfl, ?_⟩
  cases hfind : s.sock.eps.find? (·.eid = n) with
  | none =>
      have hnone : ¬ ∃ ep ∈ s.sock.eps, ep.eid = n := by simpa using hfind
      simp only [Sock.next, Sock.rmEp, hfind, Option.getD_none] at hnext
      obtain rfl := Except.ok.inj hnext
      rw [if_neg hnone]
      exact ⟨fun _ => hinv', h.tame, h.emptied, h.ledger, h.progress.of_sock rfl rfl rfl,
        fun hposted => h.posted hposted⟩
  | some ep =>
      have hmem := List.mem_of_find?_eq_some hfind
      have heid : ep.eid = n := by simpa using List.find?_some hfind
      simp only [Sock.next, Sock.rmEp, hfind, Option.getD_some] at hnext
      obtain rfl := Except.ok.inj hnext
      rw [if_pos ⟨ep, hmem, heid⟩]
      have hledger := h.ledger.move (Sock.perm_eraseP_find hfind)
      rw [List.map_singleton, List.map_singleton, heid] at hledger
      refine ⟨fun _ => hinv', h.tame, fun hstate => ?_, hledger, h.progress.of_sock rfl rfl rfl,
        fun hposted => h.posted hposted⟩
      rw [(h.emptied hstate).1] at hmem
      exact absurd hmem (by simp)

theorem Inv.steps_act {i : Nat} {accepted : Bool} (h : s.Inv kind)
    (hen : s.Enabled (.act i accepted)) (htimely : s.Timely (.act i accepted)) :
    s.Steps kind (.act i accepted) := by
  obtain ⟨⟨c, hc, -⟩, hentered⟩ := hen
  have hget : s.calls[i]? = some c := hc
  have hlt : i < s.calls.length := (List.getElem?_eq_some_iff.mp hget).1
  have hcalls : (s.calls.set i { c with acted := true }) ≠ [] := by
    intro hnil
    have hlength := congrArg List.length hnil
    rw [List.length_set, List.length_nil] at hlength
    omega
  have hinv : ({ s with calls := s.calls.set i { c with acted := true } } : SockUse).Inv kind :=
    h.of_calls (List.length_set ..)
  have hadd : c.op = .bind ∨ c.op = .connect → accepted = true →
      s.sock.state ≠ .stopping ∧ s.sock.state ≠ .fini := by
    intro hop haccepted
    subst haccepted
    exact htimely ⟨c, hc, hop⟩
  unfold Steps
  simp only [next, hget]
  obtain ⟨op, acted⟩ := c
  cases op with
  | bind => exact hinv.add_spec hcalls hentered (hadd (Or.inl rfl))
  | connect => exact hinv.add_spec hcalls hentered (hadd (Or.inr rfl))
  | shutdown eid => exact hinv.remove_spec hcalls

/-! ## Closing -/

/-- What `grid_sock_stop` changes. -/
theorem stop_effect {s s' : Sock} (h : s.next kind .stop = .ok s') (hfsm : s.fsm = .active) :
    s'.eps = [] ∧ s'.sdeps = s.sdeps ++ s.eps.map Ep.stop ∧ s'.freed = s.freed ∧
      s'.fsm = .stopping ∧ s'.eid = s.eid ∧ s'.holds = s.holds ∧ s'.relesem = s.relesem ∧
      s'.state ≠ .zombie ∧
      (s'.state = .stopping ∨ s'.state = .fini → s'.sdeps = []) ∧
      (s'.termsem = s.termsem ∨ s'.state = .fini) := by
  simp only [Sock.next, Sock.stop, hfsm, if_true] at h
  obtain ⟨-, -, h⟩ := bind_eq_ok_iff.mp h
  obtain ⟨heps, hsdeps, hfreed, hfsm', heid, hholds, hrele, hcame⟩ := finish2_effect h rfl
  refine ⟨heps, hsdeps, hfreed, hfsm', heid, hholds, hrele, hcame.tame (by simp), ?_, ?_⟩
  · intro hstate
    cases hcame with
    | none hsame => rcases hstate with hstate | hstate <;> simp [hsame] at hstate
    | started hactive => rcases hstate with hstate | hstate <;> simp [hactive] at hstate
    | emptied _ _ _ _ hnil => exact hnil
    | gone _ _ _ hnil => exact hnil
    | ended hold => exact absurd hold (by simp)
  · cases hcame with
    | none _ hsame => exact Or.inl hsame
    | started _ hsame => exact Or.inl hsame
    | emptied _ _ hsame => exact Or.inl hsame
    | gone _ hfini => exact Or.inr hfini
    | ended _ hfini => exact Or.inr hfini

theorem Inv.steps_close (h : s.Inv kind) (hen : s.Enabled .close) : s.Steps kind .close := by
  have hclosing := h.closing_ne_done hen.1
  rcases h.hold_cases hen.1 hclosing with ⟨hstate, hfsm, hhold⟩ | hhold
  · obtain ⟨sock, hnext, hinv⟩ := (inv_holds (h.sock hclosing) (s.sock.holds + 1) s.sock.termsem
      s.sock.relesem).steps_stop ⟨hen.1, hen.2.2⟩
    obtain ⟨heps, hsdeps, hfreed, hfsm', heid, hholds, hrele, htame, hnil, hsem⟩ :=
      stop_effect hnext hfsm
    obtain ⟨hopened, hholds₀, hrele₀⟩ := h.progress.of_active hfsm
    have hall : s.sock.eps.Perm ([] ++ s.sock.eps) := List.Perm.refl _
    have hmove := h.ledger.move hall
    refine ⟨{ s with
      sock := sock, closing := .stopped, stopped := s.stopped ++ s.sock.eps.map Ep.eid },
      ?_, fun _ => hinv, htame, fun hend => ⟨heps, hnil hend⟩, ?_, ?_, ?_⟩
    · simp only [next, hhold]
      rw [show ({ s.sock with holds := s.sock.holds + 1 } : Sock).next kind .stop = .ok sock
        from hnext]
      rfl
    · show Ledger sock.eps sock.sdeps sock.freed _ sock.eid
      rw [heps, hsdeps, hfreed, heid]
      exact hmove
    · refine .stopped rfl hfsm' ?_ (hrele.trans hrele₀)
      rw [show sock.holds = s.sock.holds + 1 from hholds, hholds₀]
    · intro hposted
      rcases hsem with hsame | hfini
      · have hold : s.Posted := by
          rcases hposted with hpos | hrelesem | hreleased | hdone
          · exact Or.inl (hsame ▸ hpos)
          · exact absurd hrelesem (by simp)
          · exact absurd hreleased (by simp)
          · exact absurd hdone (by simp)
        exact absurd ((h.posted hold).symm.trans hstate) (by simp)
      · exact hfini
  · exact ⟨s, by simp only [next, hhold], h⟩

theorem Inv.steps_closeRele (h : s.Inv kind) (hen : s.Enabled .closeRele) :
    s.Steps kind .closeRele := by
  have hstopped : s.closing = .stopped := hen
  refine ⟨{ s with sock := s.sock.rele.rele, closing := .termsem }, rfl, ?_⟩
  cases h.progress with
  | opened hclosing => exact absurd (hclosing.symm.trans hstopped) (by simp)
  | stopped _ hfsm hholds hrele =>
      rw [rele_eq, rele_eq]
      refine ⟨fun _ => inv_holds (h.sock (by simp [hstopped])) _ _ _, h.tame, h.emptied, h.ledger,
        .waiting (Or.inl rfl) hfsm ?_ fun hpos => ?_, fun hposted => ?_⟩
      · show s.sock.holds - 1 - 1 = s.calls.length
        omega
      · have hpos' : 0 < (if s.sock.holds - 1 - 1 = 0 then
            (if s.sock.holds - 1 = 0 then s.sock.relesem + 1 else s.sock.relesem) + 1
            else if s.sock.holds - 1 = 0 then s.sock.relesem + 1 else s.sock.relesem) := hpos
        rw [if_neg (by omega : ¬ s.sock.holds - 1 = 0)] at hpos'
        by_cases hlast : s.sock.holds - 1 - 1 = 0
        · exact List.eq_nil_of_length_eq_zero (by show s.calls.length = 0; omega)
        · rw [if_neg hlast, hrele] at hpos'
          exact absurd hpos' (by simp)
      · rcases hposted with hpos | hposted
        · exact h.posted (Or.inl hpos)
        · rcases hposted with hposted | hposted | hposted <;> exact absurd hposted (by simp)
  | waiting hclosing =>
      rcases hclosing with hclosing | hclosing <;>
        exact absurd (hclosing.symm.trans hstopped) (by simp)
  | released hclosing => exact absurd (hclosing.symm.trans hstopped) (by simp)
  | done hclosing => exact absurd (hclosing.symm.trans hstopped) (by simp)

theorem Inv.steps_waitTermsem (h : s.Inv kind) (hen : s.Enabled .waitTermsem) :
    s.Steps kind .waitTermsem := by
  obtain ⟨htermsem, hpos⟩ := hen
  refine ⟨{ s with
    sock := { s.sock with termsem := s.sock.termsem - 1 }, closing := .relesem }, rfl,
    fun _ => inv_holds (h.sock (by simp [htermsem])) _ _ _, h.tame, h.emptied, h.ledger, ?_,
    fun _ => h.posted (Or.inl hpos)⟩
  cases h.progress with
  | opened hclosing => exact absurd (hclosing.symm.trans htermsem) (by simp)
  | stopped hclosing => exact absurd (hclosing.symm.trans htermsem) (by simp)
  | waiting _ hfsm hholds hrele => exact .waiting (Or.inr rfl) hfsm hholds hrele
  | released hclosing => exact absurd (hclosing.symm.trans htermsem) (by simp)
  | done hclosing => exact absurd (hclosing.symm.trans htermsem) (by simp)

theorem Inv.steps_waitRelesem (h : s.Inv kind) (hen : s.Enabled .waitRelesem) :
    s.Steps kind .waitRelesem := by
  obtain ⟨hrelesem, hpos⟩ := hen
  have hfini : s.sock.state = .fini := h.posted (Or.inr (Or.inl hrelesem))
  refine ⟨{ s with
    sock := { s.sock with relesem := s.sock.relesem - 1 }, closing := .released }, rfl,
    fun _ => inv_holds (h.sock (by simp [hrelesem])) _ _ _, h.tame, h.emptied, h.ledger, ?_,
    fun _ => hfini⟩
  cases h.progress with
  | opened hclosing => exact absurd (hclosing.symm.trans hrelesem) (by simp)
  | stopped hclosing => exact absurd (hclosing.symm.trans hrelesem) (by simp)
  | waiting _ hfsm _ hrele => exact .released rfl hfsm (hrele hpos)
  | released hclosing => exact absurd (hclosing.symm.trans hrelesem) (by simp)
  | done hclosing => exact absurd (hclosing.symm.trans hrelesem) (by simp)

theorem Inv.steps_term (h : s.Inv kind) (hen : s.Enabled .term) : s.Steps kind .term := by
  obtain ⟨hreleased, -⟩ := hen
  have hfini : s.sock.state = .fini := h.posted (Or.inr (Or.inr (Or.inl hreleased)))
  obtain ⟨heps, hsdeps⟩ := h.emptied (Or.inr hfini)
  have hnone : SockEvent.stopped ∉ s.sock.events := by
    refine List.count_eq_zero.mp ?_
    cases (h.sock (by simp [hreleased])).phase with
    | init _ hstate => exact absurd (hstate.symm.trans hfini) (by simp)
    | running _ _ _ hq => exact hq
    | stoppingEps _ _ _ hq => exact hq
    | stopping _ hstate => exact absurd (hstate.symm.trans hfini) (by simp)
    | fini _ _ _ hq => exact hq
  cases h.progress with
  | opened hclosing => exact absurd (hclosing.symm.trans hreleased) (by simp)
  | stopped hclosing => exact absurd (hclosing.symm.trans hreleased) (by simp)
  | waiting hclosing =>
      rcases hclosing with hclosing | hclosing <;>
        exact absurd (hclosing.symm.trans hreleased) (by simp)
  | released _ hfsm hcalls =>
      refine ⟨{ s with sock := { s.sock with fsm := .idle }, closing := .done }, ?_,
        fun hne => absurd rfl hne, h.tame, h.emptied, h.ledger, .done rfl rfl hcalls,
        fun _ => hfini⟩
      simp only [next, Sock.term]
      rw [gridAssert_pos hfsm, ok_bind, gridAssert_pos hnone, ok_bind, gridAssert_pos hsdeps,
        ok_bind, gridAssert_pos heps]
      rfl
  | done hclosing => exact absurd (hclosing.symm.trans hreleased) (by simp)

/-! ## Runs -/

/-- Every step that is timely can be taken. -/
theorem Inv.steps {l : Label} (h : s.Inv kind) (hen : s.Enabled l) (htimely : s.Timely l) :
    s.Steps kind l := by
  cases l with
  | hold op => exact h.steps_hold hen
  | act i accepted => exact h.steps_act hen htimely
  | rele i => exact h.steps_rele hen
  | close => exact h.steps_close hen
  | closeRele => exact h.steps_closeRele hen
  | waitTermsem => exact h.steps_waitTermsem hen
  | waitRelesem => exact h.steps_waitRelesem hen
  | term => exact h.steps_term hen
  | env l => exact h.steps_env hen htimely

theorem inv_init : ({} : SockUse).Inv kind where
  sock := fun _ => Sock.inv_init
  tame := by simp
  emptied := by simp
  ledger := ⟨List.Perm.refl [], List.Perm.refl [], Nat.one_pos⟩
  progress := .opened rfl (by simp) rfl rfl fun _ => rfl
  posted := by simp [Posted]

theorem Inv.of_reachable (hs : ((system kind).restrict Timely).Reachable s) : s.Inv kind := by
  refine hs.invariant ?_ ?_
  · intro s hinit
    rw [show s = {} from hinit]
    exact inv_init
  · intro s l s' _ hinv ⟨htimely, hen, hnext⟩
    obtain ⟨s'', hnext', hinv'⟩ := hinv.steps hen htimely
    rw [hnext] at hnext'
    exact Except.ok.inj hnext' ▸ hinv'

/-- With both lists empty, every endpoint was stopped once and freed once. -/
theorem Ledger.once_each {freed stopped : List Nat} {n : Nat} (h : Ledger [] [] freed stopped n)
    {eid : Nat} (hpos : 0 < eid) (hlt : eid < n) :
    stopped.count eid = 1 ∧ freed.count eid = 1 := by
  have hfreed : freed.count eid = 1 := by
    have hcount : freed.count eid = _ := h.once.count_eq eid
    rw [hcount]
    refine List.count_eq_one_of_mem (List.nodup_range' ..) ?_
    rw [List.mem_range'_1]
    omega
  exact ⟨(h.stopped.count_eq eid).trans hfreed, hfreed⟩

/-- As long as no endpoint comes too late, no check fails, whatever the threads do; and when
`grid_sock_term` completes, every endpoint that was added has been stopped once and freed
once. -/
theorem endpoints_freed_once (kind : SockKind) (s : SockUse)
    (hs : ((system kind).restrict Timely).Reachable s) :
    (∀ l, s.Enabled l → s.Timely l → ∃ s', s.next kind l = .ok s') ∧
    (s.closing = .released ∨ s.closing = .done → s.sock.eps = [] ∧ s.sock.sdeps = [] ∧
      ∀ eid, 0 < eid → eid < s.sock.eid →
        s.stopped.count eid = 1 ∧ s.sock.freed.count eid = 1) := by
  have hinv := Inv.of_reachable hs
  refine ⟨fun l hen htimely => ?_, fun hclosing => ?_⟩
  · obtain ⟨s', hnext, -⟩ := hinv.steps hen htimely
    exact ⟨s', hnext⟩
  · have hfini : s.sock.state = .fini := by
      refine hinv.posted ?_
      rcases hclosing with hclosing | hclosing
      · exact Or.inr (Or.inr (Or.inl hclosing))
      · exact Or.inr (Or.inr (Or.inr hclosing))
    obtain ⟨heps, hsdeps⟩ := hinv.emptied (Or.inr hfini)
    refine ⟨heps, hsdeps, fun eid hpos hlt => ?_⟩
    have hledger := hinv.ledger
    rw [heps, hsdeps] at hledger
    exact hledger.once_each hpos hlt

/-- The runs computed from the beginning. -/
def run (kind : SockKind) (labels : List Label) : Option SockUse :=
  System.follow (tryNext kind) {} labels

/-- The timely ones. -/
def timelyRun (kind : SockKind) (labels : List Label) : Option SockUse :=
  System.follow (fun s l => if s.Timely l then s.tryNext kind l else none) {} labels

theorem run_reachable {labels : List Label} (h : run kind labels = some s) :
    (system kind).Reachable s :=
  (System.Reachable.start rfl).follow (fun _ _ _ => tryNext_step) h

theorem timelyRun_reachable {labels : List Label} (h : timelyRun kind labels = some s) :
    ((system kind).restrict Timely).Reachable s := by
  refine (System.Reachable.start rfl).follow (fun s l s' hnext => ?_) h
  split at hnext
  · rename_i htimely
    exact ⟨htimely, tryNext_step hnext⟩
  · exact absurd hnext (by simp)

/-- One thread binds an endpoint, another one closes the socket. -/
theorem endpoints_freed_once_bind : ∃ s : SockUse,
    ((system Sock.plainKind).restrict Timely).Reachable s ∧ s.closing = .done ∧
      s.stopped.count 1 = 1 ∧ s.sock.freed.count 1 = 1 := by
  have hrun : (timelyRun Sock.plainKind
      [.env .start, .env (.leave false true), .hold .bind, .act 0 true, .env (.leave false true),
        .rele 0, .close, .env (.leave false true), .closeRele, .env (.epReports 1), .env .deliver,
        .env .deliver, .env (.leave false true), .waitTermsem, .waitRelesem, .term]).any
      (fun s => s.closing = .done ∧ 1 < s.sock.eid) = true := by decide +kernel
  obtain ⟨s, hfollow, hend⟩ := (Option.any_eq_true _ _).mp hrun
  obtain ⟨hdone, hlt⟩ := of_decide_eq_true hend
  have hs := timelyRun_reachable hfollow
  obtain ⟨-, -, honce⟩ := (endpoints_freed_once Sock.plainKind s hs).2 (Or.inr hdone)
  exact ⟨s, hs, hdone, honce 1 Nat.one_pos hlt⟩

/-- A thread that holds the socket binds an endpoint after another one has called
`grid_close`: it is never freed, and `grid_sock_term` ends the process.  With an endpoint
that is still shutting down, `grid_sock_shutdown` does. -/
theorem not_endpoints_freed_once :
    (∃ s, (system Sock.plainKind).Reachable s ∧ s.Enabled .term ∧ s.sock.eps ≠ [] ∧
      s.next Sock.plainKind .term = .error .assertion) ∧
    ∃ s, (system Sock.plainKind).Reachable s ∧ s.Enabled (.env .deliver) ∧
      s.next Sock.plainKind (.env .deliver) = .error .assertion := by
  have hlate : (run Sock.plainKind
      [.env .start, .env (.leave false true), .hold .bind, .close, .env (.leave false true),
        .closeRele, .act 0 true, .env (.leave false true), .rele 0, .waitTermsem,
        .waitRelesem]).any
      (fun s => s.Enabled .term ∧ s.sock.eps ≠ [] ∧
        s.next Sock.plainKind .term = .error .assertion) = true := by decide +kernel
  have hleft : (run Sock.plainKind
      [.env .start, .env (.leave false true), .hold .bind, .act 0 true, .env (.leave false true),
        .rele 0, .hold .connect, .close, .env (.leave false true), .act 0 true,
        .env (.leave false true), .env (.epReports 1), .env .deliver]).any
      (fun s => s.Enabled (.env .deliver) ∧
        s.next Sock.plainKind (.env .deliver) = .error .assertion) = true := by decide +kernel
  obtain ⟨s, hs, hend⟩ := (Option.any_eq_true _ _).mp hlate
  obtain ⟨s', hs', hend'⟩ := (Option.any_eq_true _ _).mp hleft
  exact ⟨⟨s, run_reachable hs, of_decide_eq_true hend⟩,
    s', run_reachable hs', of_decide_eq_true hend'⟩

end SockUse

end GridMq.Core
