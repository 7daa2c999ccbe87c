import GridMq.Core.HoldsRuns
import GridMq.Core.Readiness

set_option autoImplicit false

/-!
# Runs in which sockets become ready

Whoever acts on a socket is in its context, and leaves it through `grid_sock_onleave` only.
So a socket whose context nobody is in shows what its type said when it was left.
-/

namespace GridMq.Core

open GridMq.Aio GridMq.Library

/-! ## Who is in the context -/

namespace Sock

variable {kind : SockKind} {s s' : Sock}

theorem raise_entered {e : SockEvent} (h : s.raise e = .ok s') : s'.entered = s.entered := by
  obtain ⟨events, -, h⟩ := bind_eq_ok_iff.mp h
  obtain rfl := Except.ok.inj h
  rfl

theorem finish2_entered (h : s.finish2 kind = .ok s') : s'.entered = s.entered := by
  unfold finish2 at h
  split at h
  · obtain rfl := Except.ok.inj h
    rfl
  · obtain ⟨_, -, h⟩ := bind_eq_ok_iff.mp h
    obtain rfl := Except.ok.inj h
    simp only [finish1]
    split <;> rfl

theorem freeEp_entered {n : Nat} (h : s.freeEp n = .ok s') : s'.entered = s.entered := by
  obtain ⟨-, rfl⟩ := SockUse.freeEp_effect h
  rfl

theorem shutdown_entered {e : SockEvent} (h : s.shutdown kind e = .ok s') :
    s'.entered = s.entered := by
  unfold shutdown at h
  split at h
  · split at h
    · obtain ⟨s₁, hfree, h⟩ := bind_eq_ok_iff.mp h
      exact (finish2_entered h).trans (freeEp_entered hfree)
    all_goals
      obtain rfl := Except.ok.inj h
      rfl
  · obtain ⟨_, -, h⟩ := bind_eq_ok_iff.mp h
    obtain rfl := Except.ok.inj h
    rfl
  all_goals exact absurd h (by simp)

theorem handler_entered {e : SockEvent} (h : s.handler e = .ok s') : s'.entered = s.entered := by
  unfold handler at h
  split at h
  · split at h <;> exact absurd h (by simp)
  · split at h
    · exact absurd h (by simp)
    · exact freeEp_entered h
    · obtain rfl := Except.ok.inj h
      rfl
    · exact absurd h (by simp)
  all_goals exact absurd h (by simp)

/-- An event is processed by the thread that is in the context. -/
theorem process_entered {e : SockEvent} (h : s.process kind e = .ok s') :
    s'.entered = s.entered := by
  unfold process at h
  split at h
  · split at h
    · exact absurd h (by simp)
    · obtain ⟨ep, -, h⟩ := bind_eq_ok_iff.mp h
      have hraise := raise_entered h
      exact hraise
  · split at h
    · exact shutdown_entered h
    · exact handler_entered h

theorem stop_entered (h : s.stop kind = .ok s') : s'.entered = s.entered := by
  unfold stop at h
  split at h
  · obtain ⟨_, -, h⟩ := bind_eq_ok_iff.mp h
    have hfinish := finish2_entered h
    exact hfinish
  · obtain rfl := Except.ok.inj h
    rfl

theorem zombify_entered (h : s.zombify kind = .ok s') : s'.entered = s.entered := by
  unfold zombify at h
  split at h
  · split at h
    · obtain rfl := Except.ok.inj h
      rfl
    all_goals exact absurd h (by simp)
  · split at h
    · obtain rfl := Except.ok.inj h
      rfl
    · obtain rfl := Except.ok.inj h
      rfl
    all_goals exact absurd h (by simp)

/-- The steps of a socket are made in its context, and it is left by none but the last. -/
theorem next_entered {l : Label} (hq : s.entered = false → s.events = []) (hen : s.Enabled l)
    (hl : ∀ canRecv canSend, l ≠ .leave canRecv canSend) (h : s.next kind l = .ok s') :
    s'.entered = true := by
  cases l with
  | start =>
      obtain ⟨_, -, h⟩ := bind_eq_ok_iff.mp h
      split at h
      · obtain rfl := Except.ok.inj h
        rfl
      all_goals exact absurd h (by simp)
  | zombify =>
      have hzombify := zombify_entered h
      exact hzombify
  | stop =>
      have hstop := stop_entered h
      exact hstop
  | addEp =>
      obtain rfl := Except.ok.inj h
      rfl
  | rmEp n =>
      obtain rfl := Except.ok.inj h
      unfold rmEp
      split <;> rfl
  | epReports n =>
      simp only [next, epReports] at h
      split at h
      · exact absurd h (by simp)
      · have hraise := raise_entered h
        exact hraise
  | pipeEvent n pipe out =>
      have hraise := raise_entered h
      exact hraise
  | sockbaseReports =>
      have hraise := raise_entered h
      exact hraise
  | deliver =>
      have hin : s.entered = true := by
        by_contra hout
        exact hen (hq (by simpa using hout))
      simp only [next] at h
      split at h
      · obtain rfl := Except.ok.inj h
        exact hin
      · exact (process_entered h).trans hin
  | leave canRecv canSend => exact absurd rfl (hl canRecv canSend)

/-! ## Leaving the context -/

theorem adjust_shows {no can flag flag' : Bool} {fd fd' : Efd}
    (h : adjust no can fd flag = .ok (fd', flag')) (hno : no = false) : flag' = can := by
  subst hno
  cases can with
  | true =>
      cases flag with
      | true => exact (Prod.mk.inj (Except.ok.inj h)).2.symm
      | false => exact (Prod.mk.inj (Except.ok.inj h)).2.symm
  | false =>
      cases flag with
      | true =>
          obtain ⟨fd₁, -, h⟩ := bind_eq_ok_iff.mp h
          exact (Prod.mk.inj (Except.ok.inj h)).2.symm
      | false => exact (Prod.mk.inj (Except.ok.inj h)).2.symm

/-- The flags say then what the socket type has said. -/
theorem leave_shows {canRecv canSend : Bool}
    (h : s.next kind (.leave canRecv canSend) = .ok s') :
    s'.events = s.events ∧ s'.state = s.state ∧ (s.state = .active →
      (kind.norecv = false → s'.flagIn = canRecv) ∧
        (kind.nosend = false → s'.flagOut = canSend)) := by
  obtain ⟨s₁, hleave, h⟩ := bind_eq_ok_iff.mp h
  obtain rfl := Except.ok.inj h
  unfold onleave at hleave
  split at hleave
  · rename_i hstate
    obtain rfl := Except.ok.inj hleave
    exact ⟨rfl, rfl, fun hactive => absurd hactive hstate⟩
  · obtain ⟨⟨rcvfd, flagIn⟩, hrecv, hleave⟩ := bind_eq_ok_iff.mp hleave
    obtain ⟨⟨sndfd, flagOut⟩, hsend, hleave⟩ := bind_eq_ok_iff.mp hleave
    obtain rfl := Except.ok.inj hleave
    exact ⟨rfl, rfl, fun _ => ⟨adjust_shows hrecv, adjust_shows hsend⟩⟩

end Sock

/-! ## What a step does to the sockets -/

namespace Global

variable {s s' : Global} {fd : Nat} {e e' : OpenSock}

/-- A socket that stays as it is, as far as its users can see. -/
structure Untouched (e e' : OpenSock) : Prop where
  addr : e'.addr = e.addr
  kind : e'.kind = e.kind
  state : e'.sock.state = e.sock.state
  entered : e'.sock.entered = e.sock.entered
  events : e'.sock.events = e.sock.events
  flagIn : e'.sock.flagIn = e.sock.flagIn
  flagOut : e'.sock.flagOut = e.sock.flagOut

theorem Untouched.refl (e : OpenSock) : Untouched e e := ⟨rfl, rfl, rfl, rfl, rfl, rfl, rfl⟩

/-- What a step comes to for the socket in a slot. -/
inductive Fate (s : Global) (l : Label) (fd : Nat) (e' : OpenSock) : Prop where
  /-- a thread is in its context -/
  | entered (h : e'.sock.entered = true)
  | untouched {e : OpenSock} (he : s.socks fd = some e) (h : Untouched e e')
  /-- its context was left -/
  | left {e : OpenSock} {canRecv canSend : Bool} (hl : l = .env fd (.leave canRecv canSend))
      (he : s.socks fd = some e) (hen : e.sock.Enabled (.leave canRecv canSend))
      (haddr : e'.addr = e.addr) (hkind : e'.kind = e.kind)
      (hsock : e.sock.next e.kind (.leave canRecv canSend) = .ok e'.sock)

theorem setSock_cases {fd' : Nat} {e₁ : OpenSock} (h : (s.setSock fd e₁).socks fd' = some e') :
    fd' = fd ∧ e' = e₁ ∨ s.socks fd' = some e' := by
  by_cases heq : fd' = fd
  · subst heq
    exact Or.inl ⟨rfl, by simpa [setSock] using h.symm⟩
  · exact Or.inr (by simpa [setSock, Function.update_of_ne heq] using h)

/-- The other sockets stay as they are. -/
theorem fate_of_setSock {l : Label} {fd' : Nat} {e₁ : OpenSock}
    (hsocks : s'.socks = (s.setSock fd e₁).socks) (h : s'.socks fd' = some e')
    (hfate : Fate s l fd e₁) : Fate s l fd' e' := by
  rw [hsocks] at h
  rcases setSock_cases h with ⟨rfl, rfl⟩ | hold
  · exact hfate
  · exact .untouched hold (Untouched.refl e')

theorem recheck_entered (sock : Sock) (out woken : Bool) :
    (recheck sock out woken).entered = sock.entered := by
  unfold recheck
  split
  · split <;> rfl
  · rfl

/-- A call enters the context, unless its socket has not the direction it is for. -/
theorem enter_entered (e : OpenSock) (fn : Fn) (woken : Bool) (attempt : Attempt) :
    (enter e fn woken attempt).1.entered = true ∨ (enter e fn woken attempt).1 = e.sock := by
  cases fn with
  | setsockopt => exact Or.inl rfl
  | getsockopt => exact Or.inl rfl
  | bind =>
      simp only [enter]
      split
      · exact Or.inl rfl
      · exact Or.inl rfl
  | connect =>
      simp only [enter]
      split
      · exact Or.inl rfl
      · exact Or.inl rfl
  | shutdown n =>
      simp only [enter, Sock.rmEp]
      cases e.sock.eps.find? (·.eid = n) with
      | none => exact Or.inl rfl
      | some ep => exact Or.inl rfl
  | send dontwait | recv dontwait =>
      simp only [enter]
      split
      · exact Or.inr rfl
      · exact Or.inl (recheck_entered _ _ _)

/-- Counting holds and semaphores leaves a socket as its users see it. -/
theorem Fate.counts {l : Label} {e : OpenSock} {sock : Sock} {closing : Closing}
    (he : s.socks fd = some e) (hsock : Untouched e { e with sock := sock }) :
    Fate s l fd { e with sock := sock, closing := closing } :=
  .untouched he ⟨rfl, rfl, hsock.state, hsock.entered, hsock.events, hsock.flagIn, hsock.flagOut⟩

/-- A step of the library, for the socket in any slot. -/
theorem fate {l : Label} (hq : ∀ fd e, s.socks fd = some e → e.sock.entered = false →
      e.sock.events = []) (hen : s.Enabled l) (hnext : s.next l = .ok s')
    (h : s'.socks fd = some e') : Fate s l fd e' := by
  have hsame : s' = s → Fate s l fd e' := by
    rintro rfl
    exact .untouched h (Untouched.refl e')
  cases l with
  | socket kind =>
      obtain ⟨r, hsocket, hnext⟩ := bind_eq_ok_iff.mp hnext
      unfold gridSocket at hsocket
      split at hsocket
      · obtain rfl := Except.ok.inj hsocket
        exact hsame (Except.ok.inj hnext).symm
      split at hsocket
      · obtain rfl := Except.ok.inj hsocket
        exact hsame (Except.ok.inj hnext).symm
      rename_i fd' unused hfree
      obtain rfl := Except.ok.inj hsocket
      obtain rfl := Except.ok.inj hnext
      have hfate : Fate s (.socket kind) fd' ⟨s.addr, kind,
          { fsm := .active, state := .active, entered := true }, .opened⟩ := .entered rfl
      exact fate_of_setSock rfl h hfate
  | call fn n =>
      simp only [next, hold] at hnext
      cases hhold : s.holdSocketLocked n with
      | error err =>
          simp only [hhold] at hnext
          exact hsame (Except.ok.inj hnext).symm
      | ok found =>
          obtain ⟨fd', e₁⟩ := found
          obtain ⟨-, e, he, rfl⟩ := holdSocketLocked_ok hhold
          simp only [hhold] at hnext
          obtain rfl := Except.ok.inj hnext
          refine fate_of_setSock rfl h ?_
          exact Fate.counts he ⟨rfl, rfl, rfl, rfl, rfl, rfl, rfl⟩
  | enter i attempt =>
      simp only [next] at hnext
      cases hc : s.calls[i]? with
      | none =>
          simp only [hc] at hnext
          exact hsame (Except.ok.inj hnext).symm
      | some c =>
          simp only [hc] at hnext
          split at hnext
          · exact absurd hnext (by simp)
          · rename_i e woken hheld hpc
            obtain ⟨he, -⟩ := held_eq_some hheld
            obtain rfl := Except.ok.inj hnext
            refine fate_of_setSock rfl h ?_
            rcases enter_entered e c.fn woken attempt with hin | hout
            · exact .entered hin
            · refine .untouched he ?_
              rw [hout]
              exact Untouched.refl e
          · exact hsame (Except.ok.inj hnext).symm
          · exact hsame (Except.ok.inj hnext).symm
  | wake i r =>
      simp only [next] at hnext
      split at hnext
      · exact hsame (Except.ok.inj hnext).symm
      · obtain rfl := Except.ok.inj hnext
        exact .untouched h (Untouched.refl e')
  | «return» i =>
      simp only [next] at hnext
      split at hnext
      · exact hsame (Except.ok.inj hnext).symm
      split at hnext
      · exact absurd hnext (by simp)
      rename_i e hheld
      obtain ⟨he, -⟩ := held_eq_some hheld
      obtain rfl := Except.ok.inj hnext
      refine fate_of_setSock rfl h ?_
      rw [SockUse.rele_eq]
      exact Fate.counts he ⟨rfl, rfl, rfl, rfl, rfl, rfl, rfl⟩
  | close n =>
      obtain ⟨r, hclose, hnext⟩ := bind_eq_ok_iff.mp hnext
      unfold gridClose at hclose
      split at hclose
      · obtain rfl := Except.ok.inj hclose
        exact hsame (Except.ok.inj hnext).symm
      rename_i fd' e₁ hhold
      obtain ⟨sock, hstop, hclose⟩ := bind_eq_ok_iff.mp hclose
      obtain rfl := Except.ok.inj hclose
      obtain rfl := Except.ok.inj hnext
      refine fate_of_setSock rfl h (.entered ?_)
      have hstopped := Sock.stop_entered hstop
      exact hstopped
  | closeRele fd' =>
      simp only [next] at hnext
      split at hnext
      · exact absurd hnext (by simp)
      rename_i e he
      obtain rfl := Except.ok.inj hnext
      refine fate_of_setSock rfl h ?_
      rw [SockUse.rele_eq, SockUse.rele_eq]
      exact Fate.counts he ⟨rfl, rfl, rfl, rfl, rfl, rfl, rfl⟩
  | waitTermsem fd' | waitRelesem fd' =>
      simp only [next] at hnext
      split at hnext
      · exact absurd hnext (by simp)
      rename_i e he
      obtain rfl := Except.ok.inj hnext
      refine fate_of_setSock rfl h ?_
      exact Fate.counts he ⟨rfl, rfl, rfl, rfl, rfl, rfl, rfl⟩
  | sockTerm fd' =>
      simp only [next] at hnext
      split at hnext
      · exact absurd hnext (by simp)
      obtain ⟨sock, -, hnext⟩ := bind_eq_ok_iff.mp hnext
      obtain rfl := Except.ok.inj hnext
      have hold : s.socks fd = some e' := by
        by_cases heq : fd = fd'
        · subst heq
          simp at h
        · simpa [Function.update_of_ne heq] using h
      exact .untouched hold (Untouched.refl e')
  | term =>
      obtain rfl := Except.ok.inj (show Except.ok _ = Except.ok s' from hnext)
      exact .untouched h (Untouched.refl e')
  | termZombify =>
      simp only [next] at hnext
      split at hnext
      · split at hnext
        · obtain rfl := Except.ok.inj hnext
          exact .untouched h (Untouched.refl e')
        · obtain ⟨sock, hzombify, hnext⟩ := bind_eq_ok_iff.mp hnext
          obtain rfl := Except.ok.inj hnext
          refine fate_of_setSock rfl h (.entered ?_)
          have hzombie := Sock.zombify_entered hzombify
          exact hzombie
      · exact hsame (Except.ok.inj hnext).symm
      · exact hsame (Except.ok.inj hnext).symm
  | termEnd =>
      obtain rfl := Except.ok.inj (show Except.ok _ = Except.ok s' from hnext)
      exact .untouched h (Untouched.refl e')
  | env fd' l =>
      obtain ⟨e₀, he₀, -, -, henabled⟩ := hen
      simp only [next] at hnext
      split at hnext
      · exact absurd hnext (by simp)
      rename_i e he
      have hsame : e₀ = e := Option.some.inj ((show s.socks fd' = some e₀ from he₀).symm.trans he)
      rw [hsame] at henabled
      obtain ⟨sock, hsock, hnext⟩ := bind_eq_ok_iff.mp hnext
      obtain rfl := Except.ok.inj hnext
      refine fate_of_setSock rfl h ?_
      by_cases hleave : ∃ canRecv canSend, l = .leave canRecv canSend
      · obtain ⟨canRecv, canSend, rfl⟩ := hleave
        exact .left rfl he henabled rfl rfl hsock
      · have hother : ∀ canRecv canSend, l ≠ .leave canRecv canSend :=
          fun canRecv canSend hl => hleave ⟨canRecv, canSend, hl⟩
        exact .entered (Sock.next_entered (hq fd' e he) henabled hother hsock)

end Global

/-! ## Runs -/

namespace Readiness

variable {σ : Type} {events : SockbaseEvents σ} {s s' : Readiness σ} {fd : Nat} {e : OpenSock}

structure Inv (events : SockbaseEvents σ) (s : Readiness σ) : Prop where
  base : s.holds.Inv
  quiet : ∀ fd e, s.socks fd = some e → e.sock.entered = false → e.sock.events = []
  shown : ∀ fd e, s.socks fd = some e → e.sock.state = .active → e.sock.entered = false →
    (e.kind.norecv = false → e.sock.flagIn = events.canRecv (s.sockbase e.addr)) ∧
      (e.kind.nosend = false → e.sock.flagOut = events.canSend (s.sockbase e.addr))

/-- A step of the library. -/
theorem Inv.step {l : Global.Label} {g : Global} (h : s.Inv events)
    (hen : s.holds.global.Enabled l) (hasked : s.Asked events (.step l))
    (hnext : s.holds.global.next l = .ok g) :
    Inv events { s with
      holds := ⟨g, Holds.record s.holds.log (Holds.happened s.holds.global l)⟩ } := by
  refine ⟨h.base.step hen hnext, ?_, ?_⟩
  · intro fd e he hout
    cases Global.fate h.quiet hen hnext he with
    | entered hin => exact absurd (hin.symm.trans hout) (by simp)
    | untouched he₀ hsame =>
        rw [hsame.events]
        exact h.quiet _ _ he₀ (hsame.entered.symm.trans hout)
    | left hl he₀ henabled haddr hkind hsock =>
        exact (Sock.leave_shows hsock).1.trans henabled.2
  · intro fd e he hactive hout
    cases Global.fate h.quiet hen hnext he with
    | entered hin => exact absurd (hin.symm.trans hout) (by simp)
    | untouched he₀ hsame =>
        have hshown := h.shown _ _ he₀ (hsame.state.symm.trans hactive)
          (hsame.entered.symm.trans hout)
        rw [hsame.kind, hsame.flagIn, hsame.flagOut, hsame.addr]
        exact hshown
    | left hl he₀ henabled haddr hkind hsock =>
        obtain ⟨-, hstate, hflags⟩ := Sock.leave_shows hsock
        rw [hl] at hasked
        obtain ⟨hrecv, hsend⟩ := hasked _ he₀
        obtain ⟨hin, hout'⟩ := hflags (hstate.symm.trans hactive)
        rw [hkind, haddr]
        exact ⟨fun hno => (hin hno).trans hrecv, fun hno => (hout' hno).trans hsend⟩

/-- A call refuses its arguments. -/
theorem Inv.refuse {i : Nat} {g : Global} (h : s.Inv events)
    (hrefuse : Holds.refuse s.holds.global i = some g) :
    Inv events { s with holds := { s.holds with global := g } } := by
  have hsocks : g.socks = s.holds.global.socks := by
    unfold Holds.refuse at hrefuse
    split at hrefuse
    · exact absurd hrefuse (by simp)
    · split at hrefuse
      · obtain rfl := Option.some.inj hrefuse
        rfl
      · exact absurd hrefuse (by simp)
  refine ⟨h.base.refuse hrefuse, ?_, ?_⟩
  · intro fd e he
    simp only [socks, hsocks] at he
    exact h.quiet fd e he
  · intro fd e he
    simp only [socks, hsocks] at he
    exact h.shown fd e he

/-- The part of the socket type moves, in the context of its socket. -/
theorem Inv.sockbase {state : σ} (h : s.Inv events) (he : s.socks fd = some e)
    (hin : e.sock.entered = true) :
    Inv events { s with sockbase := Function.update s.sockbase e.addr state } := by
  refine ⟨h.base, h.quiet, ?_⟩
  intro fd' e' he' hactive hout
  have hother : e'.addr ≠ e.addr := by
    intro haddr
    obtain rfl := h.base.distinct fd' fd e' e he' he haddr
    obtain rfl := Option.some.inj (he'.symm.trans he)
    exact absurd (hin.symm.trans hout) (by simp)
  simp only [Function.update_of_ne hother]
  exact h.shown fd' e' he' hactive hout

theorem Inv.of_reachable (hs : (system events).Reachable s) : s.Inv events := by
  refine hs.invariant ?_ ?_
  · intro s hinit
    have hholds : s.holds = {} := hinit
    have hnone : ∀ fd, s.socks fd = none := by
      intro fd
      unfold socks
      rw [hholds]
    refine ⟨by rw [hholds]; exact Holds.Inv.init, ?_, ?_⟩
    · intro fd e he
      exact absurd ((hnone fd).symm.trans he) (by simp)
    · intro fd e he
      exact absurd ((hnone fd).symm.trans he) (by simp)
  · rintro s l s' _ hinv ⟨hen, hnext⟩
    cases l with
    | step l =>
        obtain ⟨r, hr, rfl⟩ := Option.map_eq_some_iff.mp hnext
        rcases Holds.next_cases hen.1 hr with ⟨l', g, rfl, hen', hglobal, rfl⟩ |
          ⟨i, g, rfl, hrefuse, rfl⟩
        · exact hinv.step hen' hen.2 hglobal
        · exact hinv.refuse hrefuse
    | sockbase fd state =>
        obtain ⟨e, he, rfl⟩ := Option.map_eq_some_iff.mp hnext
        obtain ⟨e₀, he₀, hin⟩ := hen
        obtain rfl := Option.some.inj ((show s.socks fd = some e₀ from he₀).symm.trans he)
        exact hinv.sockbase he hin

/-- A socket that is active or a zombie was not closed. -/
theorem Inv.usable (h : s.Inv events) (he : s.socks fd = some e)
    (hstate : e.sock.state = .active ∨ e.sock.state = .zombie) :
    Global.Usable e.kind e.sock := by
  apply h.base.base.usable fd e he
  by_contra hclosed
  rcases ((h.base.slots fd e he).closed hclosed).2 with hgone | hgone | hgone
  all_goals rcases hstate with hstate | hstate <;> exact absurd (hstate.symm.trans hgone) (by simp)

theorem Inv.shows (h : s.Inv events) (he : s.socks fd = some e) : s.Shows events e := by
  have hagree : ∀ {flag can : Bool} {f : Efd}, f.opened = true ∧ f.signaled = flag →
      flag = can → Agree flag f can := by
    rintro flag can f ⟨hopen, hflag⟩ rfl
    refine ⟨?_, Iff.rfl⟩
    rw [← hflag]
    exact ⟨fun hs => ⟨hopen, hs⟩, fun hr => hr.2⟩
  refine ⟨?_, ?_, ?_, ?_⟩
  · intro hactive hout hno
    exact hagree ((h.usable he (Or.inl hactive)).signals.rcvfd hno)
      ((h.shown fd e he hactive hout).1 hno)
  · intro hactive hout hno
    exact hagree ((h.usable he (Or.inl hactive)).signals.sndfd hno)
      ((h.shown fd e he hactive hout).2 hno)
  · intro hzombie hno
    have husable := h.usable he (Or.inr hzombie)
    obtain ⟨hopen, hflag⟩ := husable.signals.rcvfd hno
    exact ⟨hopen, hflag.trans (husable.flags hzombie).1⟩
  · intro hzombie hno
    have husable := h.usable he (Or.inr hzombie)
    obtain ⟨hopen, hflag⟩ := husable.signals.sndfd hno
    exact ⟨hopen, hflag.trans (husable.flags hzombie).2⟩

/-- The descriptor that a call waits for is readable when the call is due. -/
theorem Inv.readable (h : s.Inv events) {c : Pending} (hc : c ∈ s.holds.global.calls)
    (hheld : s.holds.global.held c = some e) (hwait : c.pc = .waiting)
    (hdue : s.Due events e c.fn) : (Global.descriptor e c.fn).Readable := by
  obtain ⟨he, haddr⟩ := Global.held_eq_some hheld
  have hwaits := (h.base.base.calls c hc).2 (Or.inl hwait) e he haddr
  have hshows := h.shows he
  cases hfn : c.fn with
  | send dontwait =>
      rw [hfn] at hwaits hdue
      rcases hdue with hzombie | ⟨hactive, hout, hcan⟩
      · exact hshows.zombieSend hzombie hwaits.2
      · have hagree := hshows.send hactive hout hwaits.2
        exact hagree.signaled.mp (hagree.reported.mpr hcan)
  | recv dontwait =>
      rw [hfn] at hwaits hdue
      rcases hdue with hzombie | ⟨hactive, hout, hcan⟩
      · exact hshows.zombieRecv hzombie hwaits.2
      · have hagree := hshows.recv hactive hout hwaits.2
        exact hagree.signaled.mp (hagree.reported.mpr hcan)
  | setsockopt | getsockopt | bind | connect | shutdown n =>
      rw [hfn] at hwaits; exact absurd hwaits id

/-- Every open socket shows what it should, and a call that is due can be woken, and by its
descriptor only. -/
theorem readiness_signalled (σ : Type) (events : SockbaseEvents σ) (s : Readiness σ)
    (hs : (system events).Reachable s) :
    (∀ fd e, s.socks fd = some e → s.Shows events e) ∧
    ∀ i c e, s.holds.global.calls[i]? = some c → s.holds.global.held c = some e →
      c.pc = .waiting → s.Due events e c.fn → ∀ r, s.holds.global.Enabled (.wake i r) ↔ r = .zero := by
  have hinv := Inv.of_reachable hs
  refine ⟨fun fd e he => hinv.shows he, ?_⟩
  intro i c e hc hheld hwait hdue r
  have hreadable := hinv.readable (List.mem_of_getElem? hc) hheld hwait hdue
  rw [← Global.canWake_of_readable hreadable r]
  constructor
  · rintro ⟨c', hc', -, hcan⟩
    obtain rfl := Option.some.inj (hc.symm.trans hc')
    exact hcan e hheld
  · intro hcan
    refine ⟨c, hc, hwait, ?_⟩
    intro e' he'
    obtain rfl := Option.some.inj (hheld.symm.trans he')
    exact hcan

/-- Parts of socket types that are known by what can be done with them. -/
def plainEvents : SockbaseEvents (Bool × Bool) where
  canRecv := Prod.fst
  canSend := Prod.snd

/-- A call waits for a message until a pipe of an endpoint has one. -/
def arrivalLabels : List (Label (Bool × Bool)) :=
  [.step (.step (.socket Sock.plainKind)), .step (.step (.env 0 (.leave false false))),
    .step (.step (.call .bind 0)), .step (.step (.enter 0 .zero)),
    .step (.step (.env 0 (.leave false false))), .step (.step (.call (.recv false) 0)),
    .step (.step (.enter 1 .eagain)), .step (.step (.env 0 (.leave false false))),
    .step (.step (.env 0 (.pipeEvent 1 0 false))), .step (.step (.env 0 .deliver)),
    .sockbase 0 (true, false), .step (.step (.env 0 (.leave true false)))]

theorem readiness_signalled_arrival : ∃ s : Readiness (Bool × Bool),
    (system plainEvents).Reachable s ∧ (∃ e, s.socks 0 = some e ∧ s.Shows plainEvents e ∧
      e.sock.rcvfd.Readable) ∧ ∀ r, s.holds.global.Enabled (.wake 1 r) ↔ r = .zero := by
  have hrun : (System.follow (fun (s : Readiness (Bool × Bool)) l =>
      if s.Enabled plainEvents l then s.next l else none) { sockbase := fun _ => (false, false) }
      arrivalLabels).any (fun s => ∃ c ∈ s.holds.global.calls[1]?, c.pc = .waiting ∧ c.fd = 0 ∧
        c.fn = .recv false ∧ ∃ e ∈ s.holds.global.held c, e.sock.state = .active ∧
          e.sock.entered = false ∧ s.sockbase e.addr = (true, false) ∧
            e.sock.rcvfd.Readable) = true := by
    decide +kernel
  obtain ⟨s, hfollow, hend⟩ := (Option.any_eq_true _ _).mp hrun
  obtain ⟨c, hc, hwait, hfd, hfn, e, hheld, hactive, hout, hbase, hreadable⟩ :=
    of_decide_eq_true hend
  have hs : (system plainEvents).Reachable s := by
    apply System.Reachable.follow _ (.start rfl) hfollow
    intro r l r' h
    split at h
    · rename_i hen
      exact ⟨hen, h⟩
    · exact absurd h (by simp)
  have he : s.socks 0 = some e := by
    rw [← hfd]
    exact (Global.held_eq_some hheld).1
  have hdue : s.Due plainEvents e c.fn := by
    refine Or.inr ⟨hactive, hout, ?_⟩
    rw [hfn]
    simp only [condition, plainEvents, hbase]
  obtain ⟨hshows, hwake⟩ := readiness_signalled (Bool × Bool) plainEvents s hs
  exact ⟨s, hs, ⟨e, he, hshows 0 e he, hreadable⟩, hwake 1 c e hc hheld hwait hdue⟩

end Readiness

end GridMq.Core
