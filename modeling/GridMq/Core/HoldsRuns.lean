import GridMq.Core.GlobalRuns
import GridMq.Core.Holds
import Mathlib.Data.List.Nodup
import Mathlib.Data.List.Perm.Subperm

set_option autoImplicit false

/-!
# Runs of the library with the holds of its sockets

A close takes a hold, stops the socket and drops two holds; from then on the count is that
of the calls that are still in progress, and who brings it to zero posts the semaphore.
-/

namespace GridMq.Core

open GridMq.Library

namespace Holds

/-! ## Calls in progress -/

variable {s s' : Global} {c : Pending} {i fd addr : Nat}

theorem users_erase (a : Nat) (h : s.calls[i]? = some c)
    (hcalls : s'.calls = s.calls.eraseIdx i) :
    users s a = users s' a + if c.addr = a then 1 else 0 := by
  obtain ⟨hlt, hget⟩ := List.getElem?_eq_some_iff.mp h
  have hperm := (List.getElem_cons_eraseIdx_perm hlt).map Pending.addr
  rw [users, ← hperm.count_eq, users, hcalls, List.map_cons, List.count_cons, hget]
  simp

theorem users_set {pc : Pc} (h : s.calls[i]? = some c)
    (hcalls : s'.calls = s.calls.set i { c with pc := pc }) : users s' addr = users s addr := by
  obtain ⟨hlt, hget⟩ := List.getElem?_eq_some_iff.mp h
  have hset := (List.set_perm_cons_eraseIdx hlt { c with pc := pc }).map Pending.addr
  have hperm := (List.getElem_cons_eraseIdx_perm hlt).map Pending.addr
  rw [users, users, hcalls, hset.count_eq, ← hperm.count_eq, List.map_cons, List.map_cons, hget]

theorem users_pos (h : c ∈ s.calls) : 0 < users s c.addr :=
  List.count_pos_iff.mpr (List.mem_map_of_mem h)

theorem users_none (h : ∀ c ∈ s.calls, c.addr ≠ addr) : users s addr = 0 := by
  apply List.count_eq_zero.mpr
  intro hmem
  obtain ⟨c, hc, haddr⟩ := List.mem_map.mp hmem
  exact h c hc haddr

/-! ## The socket of a slot -/

/-- A socket that was stopped cannot be held any more. -/
def Closed (s : Sock) : Prop :=
  s.fsm = .stopping ∧ (s.state = .stoppingEps ∨ s.state = .stopping ∨ s.state = .fini)

theorem Closed.hold {s : Sock} (h : Closed s) : (s.hold).2 = .ebadf := by
  rcases h.2 with hstate | hstate | hstate
  · simp [Sock.hold, hstate]
  · simp [Sock.hold, hstate]
  · simp [Sock.hold, hstate]

theorem Closed.came {s s' : Sock} (h : Closed s) (hcame : SockUse.Came s s')
    (hfsm : s'.fsm = .stopping) : Closed s' := by
  refine ⟨hfsm, ?_⟩
  cases hcame with
  | none hstate => rw [hstate]; exact h.2
  | started _ _ hidle => exact absurd (h.1.symm.trans hidle) (by simp)
  | emptied _ hstate => exact Or.inr (Or.inl hstate)
  | gone _ hstate => exact Or.inr (Or.inr hstate)
  | ended _ hstate => exact Or.inr (Or.inr hstate)

/-- Steps that leave the holds alone. -/
structure Quiet (s s' : Sock) : Prop where
  holds : s'.holds = s.holds
  relesem : s'.relesem = s.relesem
  closed : Closed s → Closed s'

theorem Quiet.refl (s : Sock) : Quiet s s := ⟨rfl, rfl, id⟩

theorem env_quiet {kind : SockKind} {s s' : Sock} {l : Sock.Label}
    (hl : SockUse.isEnv l = true) (h : s.next kind l = .ok s') : Quiet s s' := by
  have heffect := SockUse.env_effect hl h
  refine ⟨heffect.holds, heffect.relesem, ?_⟩
  intro hclosed
  apply hclosed.came heffect.came
  rcases heffect.fsm with hfsm | ⟨hidle, -⟩
  · rw [hfsm]
    exact hclosed.1
  · exact absurd (hclosed.1.symm.trans hidle) (by simp)

theorem zombify_quiet {kind : SockKind} {s s' : Sock} (h : s.next kind .zombify = .ok s') :
    Quiet s s' := by
  simp only [Sock.next, Sock.zombify] at h
  split at h
  · split at h
    · obtain rfl := Except.ok.inj h
      exact ⟨rfl, rfl, id⟩
    all_goals exact absurd h (by simp)
  · rename_i hfsm
    have hnot : ¬Closed s := fun hclosed => hfsm hclosed.1
    split at h
    · obtain rfl := Except.ok.inj h
      exact ⟨rfl, rfl, fun hclosed => absurd hclosed hnot⟩
    · obtain rfl := Except.ok.inj h
      exact ⟨rfl, rfl, fun hclosed => absurd hclosed hnot⟩
    all_goals exact absurd h (by simp)

theorem recheck_quiet (s : Sock) (out woken : Bool) : Quiet s (Global.recheck s out woken) := by
  unfold Global.recheck
  split
  · split
    · exact ⟨rfl, rfl, id⟩
    · exact ⟨rfl, rfl, id⟩
  · exact Quiet.refl s

theorem enter_quiet (e : OpenSock) (fn : Fn) (woken : Bool) (attempt : Attempt) :
    Quiet e.sock (Global.enter e fn woken attempt).1 := by
  have hadd : Quiet e.sock
      (if attempt = .zero then ({ e.sock with entered := true } : Sock).addEp
        else { e.sock with entered := true }) := by
    split
    · exact ⟨rfl, rfl, id⟩
    · exact ⟨rfl, rfl, id⟩
  have hentered : Quiet e.sock { e.sock with entered := true } := ⟨rfl, rfl, id⟩
  have hrecheck : ∀ out,
      Quiet e.sock (Global.recheck { e.sock with entered := true } out woken) := by
    intro out
    obtain ⟨hholds, hrelesem, hclosed⟩ := recheck_quiet { e.sock with entered := true } out woken
    exact ⟨hholds, hrelesem, hclosed⟩
  cases fn with
  | setsockopt => exact hentered
  | getsockopt => exact hentered
  | bind => exact hadd
  | connect => exact hadd
  | shutdown eid =>
      simp only [Global.enter, Sock.rmEp]
      cases e.sock.eps.find? (·.eid = eid) with
      | none => exact hentered
      | some ep => exact ⟨rfl, rfl, id⟩
  | send dontwait =>
      simp only [Global.enter]
      split
      · exact Quiet.refl e.sock
      · exact hrecheck true
  | recv dontwait =>
      simp only [Global.enter]
      split
      · exact Quiet.refl e.sock
      · exact hrecheck false

theorem stop_closed {kind : SockKind} {s s' : Sock} (h : s.next kind .stop = .ok s')
    (hfsm : s.fsm = .active) :
    Closed s' ∧ s'.holds = s.holds ∧ s'.relesem = s.relesem := by
  simp only [Sock.next, Sock.stop, hfsm, if_true] at h
  obtain ⟨-, -, h⟩ := bind_eq_ok_iff.mp h
  obtain ⟨-, -, -, hfsm', -, hholds, hrele, hcame⟩ := SockUse.finish2_effect h rfl
  have hstart : Closed { s with entered := true, fsm := .stopping, state := .stoppingEps } :=
    ⟨rfl, Or.inl rfl⟩
  refine ⟨⟨hfsm', ?_⟩, hholds, hrele⟩
  cases hcame with
  | none hstate => rw [hstate]; exact Or.inl rfl
  | started _ _ hidle => exact absurd hidle (by simp)
  | emptied _ hstate => exact Or.inr (Or.inl hstate)
  | gone _ hstate => exact Or.inr (Or.inr hstate)
  | ended _ hstate => exact Or.inr (Or.inr hstate)

/-- How much of the ending has happened. -/
def stage (e : OpenSock) : Nat :=
  match e.closing with
  | .opened => 0
  | .stopped => 1
  | _ => if e.sock.holds = 0 then 2 else 1

/-- What holds of an open socket, with the number of calls in progress and what happened. -/
structure Slot (e : OpenSock) (users : Nat) (log : List HoldEvent) : Prop where
  closed : e.closing ≠ .opened → Closed e.sock
  count : e.sock.holds = users + ownHolds e.closing
  sem : 0 < e.sock.relesem → e.sock.holds = 0
  released : e.closing = .released ∨ e.closing = .done → e.sock.holds = 0
  log : ∃ n, log = List.replicate n .hold ++ ending.take (stage e)

variable {e : OpenSock} {n : Nat} {log : List HoldEvent}

theorem Slot.quiet {sock : Sock} (h : Slot e n log) (hquiet : Quiet e.sock sock) :
    Slot { e with sock := sock } n log := by
  obtain ⟨hholds, hrelesem, hclosed⟩ := hquiet
  refine ⟨fun hne => hclosed (h.closed hne), ?_, ?_, ?_, ?_⟩
  · rw [hholds]
    exact h.count
  · rw [hholds, hrelesem]
    exact h.sem
  · rw [hholds]
    exact h.released
  · have hstage : stage { e with sock := sock } = stage e := by
      simp only [stage, hholds]
    rw [hstage]
    exact h.log

/-- What remains of the states in which a socket can be held. -/
theorem Slot.opened_of_hold (h : Slot e n log) (hhold : (e.sock.hold).2 = .zero) :
    e.closing = .opened := by
  by_contra hne
  rw [(h.closed hne).hold] at hhold
  exact absurd hhold (by simp)

theorem Slot.hold (h : Slot e n log) (hopened : e.closing = .opened) :
    Slot { e with sock := { e.sock with holds := e.sock.holds + 1 } } (n + 1)
      (log ++ [.hold]) := by
  have hcount := h.count
  simp only [hopened, ownHolds] at hcount
  refine ⟨fun hne => absurd hopened hne, ?_, ?_, ?_, ?_⟩
  · simp only [hopened, ownHolds]
    omega
  · intro hsem
    have hzero := h.sem hsem
    omega
  · simp [hopened]
  · obtain ⟨m, hlog⟩ := h.log
    refine ⟨m + 1, ?_⟩
    simp only [stage, hopened, List.take_zero, List.append_nil] at hlog ⊢
    rw [hlog, List.replicate_succ']

/-- `grid_close` has its hold and has stopped the socket. -/
theorem Slot.stop {sock : Sock} (h : Slot e n log) (hopened : e.closing = .opened)
    (hclosed : Closed sock) (hholds : sock.holds = e.sock.holds + 1)
    (hrelesem : sock.relesem = e.sock.relesem) :
    Slot { e with sock := sock, closing := .stopped } n (log ++ [.hold, .stop]) := by
  have hcount := h.count
  simp only [hopened, ownHolds] at hcount
  refine ⟨fun _ => hclosed, ?_, ?_, ?_, ?_⟩
  · simp only [ownHolds]
    omega
  · intro hsem
    simp only [hrelesem] at hsem
    have hzero := h.sem hsem
    omega
  · simp
  · obtain ⟨m, hlog⟩ := h.log
    refine ⟨m + 1, ?_⟩
    simp only [stage, hopened, List.take_zero, List.append_nil] at hlog ⊢
    rw [hlog, List.replicate_succ']
    simp [ending]

theorem posts_of_eq {sock sock' : Sock} (h : sock'.relesem = sock.relesem) :
    posts sock sock' = [] := by
  rw [posts, h, Nat.sub_self]
  rfl

theorem posts_of_succ {sock sock' : Sock} (h : sock'.relesem = sock.relesem + 1) :
    posts sock sock' = [.post] := by
  rw [posts, h, Nat.add_sub_cancel_left]
  rfl

/-- A call drops its hold. -/
theorem Slot.rele (h : Slot e (n + 1) log) :
    Slot { e with sock := e.sock.rele } n (log ++ posts e.sock e.sock.rele) := by
  have hcount := h.count
  have hholds : e.sock.rele.holds = e.sock.holds - 1 := by
    rw [SockUse.rele_eq]
  have hnosem : e.sock.relesem = 0 := by
    by_contra hne
    have hzero := h.sem (by omega)
    omega
  obtain ⟨m, hlog⟩ := h.log
  have hstate : Closed e.sock → Closed e.sock.rele := by
    rw [SockUse.rele_eq]
    exact id
  refine ⟨fun hne => hstate (h.closed hne), ?_, ?_, ?_, ?_⟩
  · rw [hholds]
    simp only
    omega
  · intro hsem
    by_contra hne
    have hsame : e.sock.rele.relesem = e.sock.relesem := by
      rw [SockUse.rele_eq] at hne ⊢
      simp only at hne ⊢
      rw [if_neg hne]
    simp only at hsem
    omega
  · intro hreleased
    have hzero := h.released hreleased
    omega
  · refine ⟨m, ?_⟩
    by_cases hlast : e.sock.holds - 1 = 0
    · -- Only a socket that was closed has no hold of its own.
      have hpost : posts e.sock e.sock.rele = [.post] := by
        apply posts_of_succ
        rw [SockUse.rele_eq]
        simp only [if_pos hlast]
      have hown : ownHolds e.closing = 0 := by omega
      rw [hpost, hlog]
      have hold : stage e = 1 ∧ stage { e with sock := e.sock.rele } = 2 := by
        cases hclosing : e.closing with
        | opened => simp [hclosing, ownHolds] at hown
        | stopped => simp [hclosing, ownHolds] at hown
        | termsem | relesem =>
            simp only [stage, hclosing, hholds]
            rw [if_neg (by omega), if_pos hlast]
            exact ⟨rfl, rfl⟩
        | released => exact absurd (h.released (Or.inl hclosing)) (by omega)
        | done => exact absurd (h.released (Or.inr hclosing)) (by omega)
      rw [hold.1, hold.2, List.append_assoc]
      rfl
    · have hpost : posts e.sock e.sock.rele = [] := by
        apply posts_of_eq
        rw [SockUse.rele_eq]
        simp only [if_neg hlast]
      rw [hpost, List.append_nil, hlog]
      have hsame : stage { e with sock := e.sock.rele } = stage e := by
        simp only [stage, hholds]
        split
        · rfl
        · rfl
        · rw [if_neg hlast, if_neg (by omega)]
      rw [hsame]

/-- `grid_close` drops its own hold and that from the creation of the socket. -/
theorem Slot.closeRele (h : Slot e n log) (hstopped : e.closing = .stopped) :
    Slot { e with sock := e.sock.rele.rele, closing := .termsem } n
      (log ++ posts e.sock e.sock.rele.rele) := by
  have hcount := h.count
  simp only [hstopped, ownHolds] at hcount
  have hfirst : e.sock.rele = { e.sock with holds := e.sock.holds - 1 } := by
    rw [SockUse.rele_eq, if_neg (by omega)]
  have hholds : e.sock.rele.rele.holds = n := by
    rw [SockUse.rele_eq, hfirst]
    simp only
    omega
  have hrelesem : e.sock.rele.rele.relesem =
      if n = 0 then e.sock.relesem + 1 else e.sock.relesem := by
    rw [SockUse.rele_eq, hfirst]
    simp only [show e.sock.holds - 1 - 1 = n by omega]
  have hnosem : e.sock.relesem = 0 := by
    by_contra hne
    have hzero := h.sem (by omega)
    omega
  have hstate : Closed e.sock.rele.rele := by
    rw [SockUse.rele_eq, hfirst]
    exact h.closed (by simp [hstopped])
  obtain ⟨m, hlog⟩ := h.log
  refine ⟨fun _ => hstate, ?_, ?_, ?_, ?_⟩
  · rw [hholds]
    rfl
  · intro hsem
    simp only at hsem
    rw [hrelesem] at hsem
    rw [hholds]
    by_contra hne
    rw [if_neg hne] at hsem
    omega
  · simp
  · refine ⟨m, ?_⟩
    simp only [stage, hstopped] at hlog
    simp only [stage, hholds]
    split
    · rename_i hzero
      rw [if_pos hzero] at hrelesem
      rw [posts_of_succ hrelesem, hlog, List.append_assoc]
      rfl
    · rename_i hne
      rw [if_neg hne] at hrelesem
      rw [posts_of_eq hrelesem, hlog, List.append_nil]

/-- `grid_sock_term` is past a semaphore. -/
theorem Slot.wait {termsem relesem : Nat} {closing : Closing} (h : Slot e n log)
    (hold : e.closing = .termsem ∨ e.closing = .relesem)
    (hnew : closing = .relesem ∧ relesem = e.sock.relesem ∨
      closing = .released ∧ 0 < e.sock.relesem ∧ relesem = e.sock.relesem - 1) :
    Slot { e with
      sock := { e.sock with termsem := termsem, relesem := relesem }, closing := closing } n
      log := by
  have hcount := h.count
  have hown : ownHolds e.closing = 0 := by
    rcases hold with hold | hold
    · rw [hold]
      rfl
    · rw [hold]
      rfl
  have hclosed : Closed e.sock := by
    apply h.closed
    rcases hold with hold | hold
    · simp [hold]
    · simp [hold]
  have hstage : stage { e with
      sock := { e.sock with termsem := termsem, relesem := relesem }, closing := closing } =
      stage e := by
    rcases hold with hold | hold
    · rcases hnew with ⟨hnew, -⟩ | ⟨hnew, -⟩
      · simp only [stage, hold, hnew]
      · simp only [stage, hold, hnew]
    · rcases hnew with ⟨hnew, -⟩ | ⟨hnew, -⟩
      · simp only [stage, hold, hnew]
      · simp only [stage, hold, hnew]
  refine ⟨fun _ => hclosed, ?_, ?_, ?_, ?_⟩
  · have hown' : ownHolds closing = 0 := by
      rcases hnew with ⟨hnew, -⟩ | ⟨hnew, -⟩
      · rw [hnew]
        rfl
      · rw [hnew]
        rfl
    simp only [hown']
    omega
  · intro hsem
    simp only at hsem
    apply h.sem
    rcases hnew with ⟨-, hnew⟩ | ⟨-, hpos, -⟩
    · omega
    · exact hpos
  · intro hreleased
    rcases hnew with ⟨hnew, -⟩ | ⟨-, hpos, -⟩
    · simp [hnew] at hreleased
    · exact h.sem hpos
  · rw [hstage]
    exact h.log

/-! ## The invariant -/

structure Inv (s : Holds) : Prop where
  base : s.global.Inv
  unusedFree : ∀ fd ∈ s.global.unused, s.global.socks fd = none
  unusedOnce : s.global.unused.Nodup
  distinct : ∀ fd fd' e e', s.global.socks fd = some e → s.global.socks fd' = some e' →
    e.addr = e'.addr → fd = fd'
  fresh : ∀ addr, s.global.addr ≤ addr → s.log addr = []
  lock : ∀ fd, s.global.glock = .close fd →
    ∃ e, s.global.socks fd = some e ∧ e.closing = .stopped
  held : ∀ c ∈ s.global.calls, ∃ e, s.global.held c = some e
  slots : ∀ fd e, s.global.socks fd = some e →
    Slot e (users s.global e.addr) (s.log e.addr)
  history : ∀ addr, ∃ n k, s.log addr = List.replicate n .hold ++ ending.take k

variable {r r' : Holds}

theorem held_of_slot (he : s.socks c.fd = some e) (haddr : e.addr = c.addr) :
    s.held c = some e := by
  rw [Global.held, he, Option.filter_some]
  simp [haddr]

/-- One socket changes, with the calls that hold it and what is recorded of it. -/
theorem Inv.change {sock : Sock} {closing : Closing} (h : r.Inv)
    (he : r.global.socks fd = some e)
    (hsocks : r'.global.socks =
      Function.update r.global.socks fd (some { e with sock := sock, closing := closing }))
    (hbase : r'.global.Inv) (hunused : r'.global.unused = r.global.unused)
    (haddr : r'.global.addr = r.global.addr)
    (hlock : ∀ fd', r'.global.glock = .close fd' →
      fd' = fd ∧ closing = .stopped ∨ fd' ≠ fd ∧ r.global.glock = .close fd')
    (hcalls : ∀ c ∈ r'.global.calls,
      (∃ c₀ ∈ r.global.calls, c₀.fd = c.fd ∧ c₀.addr = c.addr) ∨ c.fd = fd ∧ c.addr = e.addr)
    (husers : ∀ a, a ≠ e.addr → users r'.global a = users r.global a)
    (hlog : ∀ a, a ≠ e.addr → r'.log a = r.log a)
    (hslot : Slot { e with sock := sock, closing := closing } (users r'.global e.addr)
      (r'.log e.addr)) : r'.Inv := by
  have hcases : ∀ fd' e', r'.global.socks fd' = some e' →
      fd' = fd ∧ e' = { e with sock := sock, closing := closing } ∨
        fd' ≠ fd ∧ r.global.socks fd' = some e' := by
    intro fd' e' he'
    rw [hsocks, Function.update_apply] at he'
    split at he'
    · rename_i hfd
      exact Or.inl ⟨hfd, (Option.some.inj he').symm⟩
    · rename_i hfd
      exact Or.inr ⟨hfd, he'⟩
  have hfd : r'.global.socks fd = some { e with sock := sock, closing := closing } := by
    rw [hsocks, Function.update_self]
  have hother : ∀ fd' e', fd' ≠ fd → r.global.socks fd' = some e' → e'.addr ≠ e.addr := by
    intro fd' e' hne he' heq
    exact hne (h.distinct fd' fd e' e he' he heq)
  refine ⟨hbase, ?_, ?_, ?_, ?_, ?_, ?_, ?_, ?_⟩
  · intro fd' hmem
    rw [hunused] at hmem
    have hnone := h.unusedFree fd' hmem
    have hne : fd' ≠ fd := by
      intro heq
      rw [heq, he] at hnone
      exact absurd hnone (by simp)
    rw [hsocks, Function.update_of_ne hne]
    exact hnone
  · rw [hunused]
    exact h.unusedOnce
  · intro fd₁ fd₂ e₁ e₂ h₁ h₂ heq
    rcases hcases fd₁ e₁ h₁ with ⟨hfd₁, rfl⟩ | ⟨hne₁, h₁⟩
    · rcases hcases fd₂ e₂ h₂ with ⟨hfd₂, rfl⟩ | ⟨hne₂, h₂⟩
      · rw [hfd₁, hfd₂]
      · exact absurd heq.symm (hother fd₂ e₂ hne₂ h₂)
    · rcases hcases fd₂ e₂ h₂ with ⟨hfd₂, rfl⟩ | ⟨hne₂, h₂⟩
      · exact absurd heq (hother fd₁ e₁ hne₁ h₁)
      · exact h.distinct fd₁ fd₂ e₁ e₂ h₁ h₂ heq
  · intro a ha
    rw [haddr] at ha
    have hlt := h.base.addrs fd e he
    rw [hlog a (by omega)]
    exact h.fresh a ha
  · intro fd' hglock
    rcases hlock fd' hglock with ⟨rfl, hstopped⟩ | ⟨hne, hold⟩
    · exact ⟨_, hfd, hstopped⟩
    · obtain ⟨e', he', hstopped⟩ := h.lock fd' hold
      refine ⟨e', ?_, hstopped⟩
      rw [hsocks, Function.update_of_ne hne]
      exact he'
  · intro c hc
    rcases hcalls c hc with ⟨c₀, hc₀, hsamefd, hsameaddr⟩ | ⟨hcfd, hcaddr⟩
    · obtain ⟨e', he'⟩ := h.held c₀ hc₀
      obtain ⟨he', haddr'⟩ := Global.held_eq_some he'
      rw [hsamefd] at he'
      rw [hsameaddr] at haddr'
      by_cases hcfd : c.fd = fd
      · rw [hcfd, he] at he'
        obtain rfl := Option.some.inj he'
        refine ⟨{ e with sock := sock, closing := closing }, held_of_slot ?_ haddr'⟩
        rw [hcfd]
        exact hfd
      · refine ⟨e', held_of_slot ?_ haddr'⟩
        rw [hsocks, Function.update_of_ne hcfd]
        exact he'
    · refine ⟨{ e with sock := sock, closing := closing }, held_of_slot ?_ hcaddr.symm⟩
      rw [hcfd]
      exact hfd
  · intro fd' e' he'
    rcases hcases fd' e' he' with ⟨-, rfl⟩ | ⟨hne, he'⟩
    · exact hslot
    · have hneaddr := hother fd' e' hne he'
      rw [husers _ hneaddr, hlog _ hneaddr]
      exact h.slots fd' e' he'
  · intro a
    by_cases ha : a = e.addr
    · obtain ⟨n, hlast⟩ := hslot.log
      exact ⟨n, _, ha ▸ hlast⟩
    · rw [hlog a ha]
      exact h.history a

/-- The calls in progress and the global lock change, but no socket. -/
theorem Inv.keep (h : r.Inv) (hsocks : r'.global.socks = r.global.socks)
    (hbase : r'.global.Inv) (hunused : r'.global.unused = r.global.unused)
    (haddr : r'.global.addr = r.global.addr)
    (hlock : ∀ fd, r'.global.glock ≠ .close fd ∨ r.global.glock = .close fd)
    (hcalls : ∀ c ∈ r'.global.calls, ∃ c₀ ∈ r.global.calls, c₀.fd = c.fd ∧ c₀.addr = c.addr)
    (husers : ∀ a, users r'.global a = users r.global a) (hlog : r'.log = r.log) :
    r'.Inv := by
  refine ⟨hbase, ?_, ?_, ?_, ?_, ?_, ?_, ?_, ?_⟩
  · rw [hunused, hsocks]
    exact h.unusedFree
  · rw [hunused]
    exact h.unusedOnce
  · rw [hsocks]
    exact h.distinct
  · rw [haddr, hlog]
    exact h.fresh
  · intro fd hglock
    rw [hsocks]
    exact h.lock fd ((hlock fd).resolve_left (fun hne => hne hglock))
  · intro c hc
    obtain ⟨c₀, hc₀, hfd, hcaddr⟩ := hcalls c hc
    obtain ⟨e, he⟩ := h.held c₀ hc₀
    obtain ⟨he, headdr⟩ := Global.held_eq_some he
    refine ⟨e, held_of_slot ?_ (headdr.trans hcaddr)⟩
    rw [hsocks, ← hfd]
    exact he
  · intro fd e he
    rw [hsocks] at he
    rw [husers, hlog]
    exact h.slots fd e he
  · rw [hlog]
    exact h.history

/-- A call goes on. -/
theorem set_calls {pc : Pc} (hc : s.calls[i]? = some c) {x : Pending}
    (hx : x ∈ s.calls.set i { c with pc := pc }) :
    ∃ c₀ ∈ s.calls, c₀.fd = x.fd ∧ c₀.addr = x.addr := by
  rcases List.mem_or_eq_of_mem_set hx with hold | rfl
  · exact ⟨x, hold, rfl, rfl⟩
  · exact ⟨c, List.mem_of_getElem? hc, rfl, rfl⟩

theorem record_other {log : Nat → List HoldEvent} {events : List HoldEvent} {a : Nat}
    (ha : a ≠ addr) : record log (some (addr, events)) a = log a :=
  Function.update_of_ne ha _ _

theorem record_self {log : Nat → List HoldEvent} {events : List HoldEvent} :
    record log (some (addr, events)) addr = log addr ++ events :=
  Function.update_self ..

/-! ## Steps -/

/-- A socket moves on its own, or is entered, or made a zombie. -/
theorem Inv.quiet {sock : Sock} (h : r.Inv) (he : r.global.socks fd = some e)
    (hquiet : Quiet e.sock sock)
    (hsocks : r'.global.socks =
      Function.update r.global.socks fd (some { e with sock := sock }))
    (hbase : r'.global.Inv) (hunused : r'.global.unused = r.global.unused)
    (haddr : r'.global.addr = r.global.addr)
    (hlock : ∀ fd', r'.global.glock = .close fd' → r.global.glock = .close fd')
    (hcalls : ∀ c ∈ r'.global.calls, ∃ c₀ ∈ r.global.calls, c₀.fd = c.fd ∧ c₀.addr = c.addr)
    (husers : ∀ a, users r'.global a = users r.global a) (hlog : r'.log = r.log) :
    r'.Inv := by
  refine h.change he hsocks hbase hunused haddr ?_ ?_ ?_ ?_ ?_
  · intro fd' hglock
    have hold := hlock fd' hglock
    by_cases hfd : fd' = fd
    · obtain ⟨e', he', hstopped⟩ := h.lock fd' hold
      rw [hfd, he] at he'
      obtain rfl := Option.some.inj he'
      exact Or.inl ⟨hfd, hstopped⟩
    · exact Or.inr ⟨hfd, hold⟩
  · exact fun c hc => Or.inl (hcalls c hc)
  · exact fun a _ => husers a
  · intro a _
    rw [hlog]
  · rw [husers, hlog]
    exact (h.slots fd e he).quiet hquiet

/-- What a hold finds, and that it is a socket that was not closed. -/
theorem Inv.holds {n : Int} {e' : OpenSock} (h : r.Inv)
    (hhold : r.global.holdSocketLocked n = .ok (fd, e')) :
    ∃ e, r.global.socks fd = some e ∧ e.closing = .opened ∧
      e' = { e with sock := { e.sock with holds := e.sock.holds + 1 } } := by
  obtain ⟨-, e, he, rfl⟩ := Global.holdSocketLocked_ok hhold
  refine ⟨e, he, ?_, rfl⟩
  apply (h.slots fd e he).opened_of_hold
  unfold Global.holdSocketLocked at hhold
  split at hhold
  · exact absurd hhold (by simp)
  split at hhold
  · exact absurd hhold (by simp)
  split at hhold
  · exact absurd hhold (by simp)
  split at hhold
  · exact absurd hhold (by simp)
  rename_i e₀ he₀
  split at hhold
  · rename_i hzero
    obtain ⟨hfd, -⟩ := Prod.mk.inj (Except.ok.inj hhold)
    rw [hfd, he] at he₀
    rw [Option.some.inj he₀, hzero]
  · exact absurd hhold (by simp)
  · exact absurd hhold (by simp)

theorem Inv.call {fn : Fn} {n : Int} (h : r.Inv)
    (hnext : r.global.next (.call fn n) = .ok s') :
    Inv ⟨s', record r.log (happened r.global (.call fn n))⟩ := by
  have hbase := h.base.call hnext
  simp only [Global.next, Global.hold] at hnext
  cases hhold : r.global.holdSocketLocked n with
  | error err =>
      simp only [hhold] at hnext
      obtain rfl := Except.ok.inj hnext
      simp only [happened, hhold]
      exact h
  | ok found =>
      obtain ⟨fd, e'⟩ := found
      obtain ⟨e, he, hopened, rfl⟩ := h.holds hhold
      simp only [hhold] at hnext
      obtain rfl := Except.ok.inj hnext
      simp only [happened, hhold]
      refine h.change he rfl hbase rfl rfl ?_ ?_ ?_ ?_ ?_
      · intro fd' hglock
        by_cases hfd : fd' = fd
        · obtain ⟨e', he', hstopped⟩ := h.lock fd' hglock
          rw [hfd, he] at he'
          obtain rfl := Option.some.inj he'
          exact Or.inl ⟨hfd, hstopped⟩
        · exact Or.inr ⟨hfd, hglock⟩
      · intro c hc
        rcases List.mem_append.mp hc with hc | hc
        · exact Or.inl ⟨c, hc, rfl, rfl⟩
        · rw [List.mem_singleton.mp hc]
          exact Or.inr ⟨rfl, rfl⟩
      · intro a ha
        simp [users, List.count_append, Ne.symm ha]
      · exact fun a ha => record_other ha
      · have hslot := (h.slots fd e he).hold hopened
        have husers : users { r.global.setSock fd
            { e with sock := { e.sock with holds := e.sock.holds + 1 } } with
              calls := r.global.calls ++ [{ fn := fn, fd := fd, addr := e.addr }] } e.addr =
            users r.global e.addr + 1 := by
          simp [users, List.count_append]
        rw [husers]
        change Slot _ _ (record r.log (some (e.addr, [.hold])) e.addr)
        rw [record_self]
        exact hslot

theorem Inv.enter {attempt : Attempt} (h : r.Inv)
    (hnext : r.global.next (.enter i attempt) = .ok s') : Inv ⟨s', r.log⟩ := by
  have hbase := h.base.enter hnext
  simp only [Global.next] at hnext
  cases hc : r.global.calls[i]? with
  | none =>
      simp only [hc] at hnext
      exact Except.ok.inj hnext ▸ h
  | some c =>
      simp only [hc] at hnext
      split at hnext
      · exact absurd hnext (by simp)
      · rename_i e woken hheld hpc
        obtain ⟨he, haddr⟩ := Global.held_eq_some hheld
        obtain rfl := Except.ok.inj hnext
        refine h.quiet he (enter_quiet e c.fn woken attempt) rfl hbase rfl rfl ?_ ?_ ?_ ?_
        · exact fun fd' hglock => hglock
        · exact fun x hx => set_calls hc hx
        · exact fun a => users_set hc rfl
        · rfl
      · exact Except.ok.inj hnext ▸ h
      · exact Except.ok.inj hnext ▸ h

/-- A call is back from a wait, or refuses its arguments. -/
theorem Inv.moved {c : Pending} {pc : Pc} (h : r.Inv) (hc : r.global.calls[i]? = some c)
    (hbase : ({ r.global with calls := r.global.calls.set i { c with pc := pc } } : Global).Inv) :
    Inv { r with
      global := { r.global with calls := r.global.calls.set i { c with pc := pc } } } := by
  refine h.keep rfl hbase rfl rfl ?_ ?_ ?_ ?_
  · intro fd
    by_cases hglock : r.global.glock = .close fd
    · exact Or.inr hglock
    · exact Or.inl hglock
  · exact fun x hx => set_calls hc hx
  · exact fun a => users_set hc rfl
  · rfl

theorem Inv.wake {res : WaitResult} (h : r.Inv) (hen : r.global.Enabled (.wake i res))
    (hnext : r.global.next (.wake i res) = .ok s') : Inv ⟨s', r.log⟩ := by
  have hbase := h.base.wake hen hnext
  obtain ⟨c, hc, -⟩ := hen
  have hget : r.global.calls[i]? = some c := hc
  simp only [Global.next, hget] at hnext
  obtain rfl := Except.ok.inj hnext
  exact h.moved hget hbase

theorem Inv.refuse (h : r.Inv) (hnext : refuse r.global i = some s') :
    Inv { r with global := s' } := by
  unfold Holds.refuse at hnext
  split at hnext
  · exact absurd hnext (by simp)
  · rename_i c hc
    split at hnext
    · obtain rfl := Option.some.inj hnext
      apply h.moved hc
      refine h.base.setCalls _ fun x hx => ?_
      rcases List.mem_or_eq_of_mem_set hx with hold | rfl
      · exact h.base.calls x hold
      · exact ⟨(h.base.calls c (List.mem_of_getElem? hc)).1, fun hpc => by simp at hpc⟩
    · exact absurd hnext (by simp)

theorem Inv.return (h : r.Inv) (hnext : r.global.next (.return i) = .ok s') :
    Inv ⟨s', record r.log (happened r.global (.return i))⟩ := by
  have hbase := h.base.return hnext
  simp only [Global.next] at hnext
  cases hc : r.global.calls[i]? with
  | none =>
      simp only [hc] at hnext
      obtain rfl := Except.ok.inj hnext
      simp only [happened, hc]
      exact h
  | some c =>
      simp only [hc] at hnext
      split at hnext
      · exact absurd hnext (by simp)
      rename_i e hheld
      obtain ⟨he, haddr⟩ := Global.held_eq_some hheld
      obtain rfl := Except.ok.inj hnext
      have hhappened : happened r.global (.return i) =
          some (e.addr, posts e.sock e.sock.rele) := by
        simp [happened, hc, hheld]
      rw [hhappened]
      refine h.change he rfl hbase rfl rfl ?_ ?_ ?_ ?_ ?_
      · intro fd' hglock
        by_cases hfd : fd' = c.fd
        · obtain ⟨e', he', hstopped⟩ := h.lock fd' hglock
          rw [hfd, he] at he'
          obtain rfl := Option.some.inj he'
          exact Or.inl ⟨hfd, hstopped⟩
        · exact Or.inr ⟨hfd, hglock⟩
      · exact fun x hx => Or.inl ⟨x, List.mem_of_mem_eraseIdx hx, rfl, rfl⟩
      · intro a ha
        have herase := users_erase a hc (rfl : Global.calls { r.global.setSock c.fd
          { e with sock := e.sock.rele } with calls := r.global.calls.eraseIdx i } = _)
        rw [if_neg (by rw [← haddr]; exact Ne.symm ha)] at herase
        exact herase.symm
      · exact fun a ha => record_other ha
      · have herase := users_erase e.addr hc (rfl : Global.calls
          { r.global.setSock c.fd { e with sock := e.sock.rele } with
            calls := r.global.calls.eraseIdx i } = _)
        rw [if_pos haddr.symm] at herase
        have hslot := h.slots c.fd e he
        rw [herase] at hslot
        change Slot _ _ (record r.log (some (e.addr, posts e.sock e.sock.rele)) e.addr)
        rw [record_self]
        exact hslot.rele

theorem Inv.close {n : Int} (h : r.Inv) (hen : r.global.Enabled (.close n))
    (hnext : r.global.next (.close n) = .ok s') :
    Inv ⟨s', record r.log (happened r.global (.close n))⟩ := by
  have hbase := h.base.close hen hnext
  obtain ⟨res, hclose, hnext⟩ := bind_eq_ok_iff.mp hnext
  unfold Global.gridClose at hclose
  cases hhold : r.global.holdSocketLocked n with
  | error err =>
      simp only [hhold] at hclose
      obtain rfl := Except.ok.inj hclose
      obtain rfl := Except.ok.inj hnext
      simp only [happened, hhold]
      exact h
  | ok found =>
      obtain ⟨fd, e'⟩ := found
      obtain ⟨e, he, hopened, rfl⟩ := h.holds hhold
      simp only [hhold] at hclose
      obtain ⟨sock, hstop, hclose⟩ := bind_eq_ok_iff.mp hclose
      obtain rfl := Except.ok.inj hclose
      obtain rfl := Except.ok.inj hnext
      obtain ⟨hclosed, hholds, hrelesem⟩ := stop_closed hstop (h.base.usable fd e he hopened).fsm
      simp only [happened, hhold]
      refine h.change he rfl hbase rfl rfl ?_ ?_ ?_ ?_ ?_
      · intro fd' hglock
        exact Or.inl ⟨(Glock.close.inj hglock).symm, rfl⟩
      · exact fun c hc => Or.inl ⟨c, hc, rfl, rfl⟩
      · exact fun a _ => rfl
      · exact fun a ha => record_other ha
      · change Slot _ (users r.global e.addr) (record r.log (some (e.addr, [.hold, .stop])) e.addr)
        rw [record_self]
        exact (h.slots fd e he).stop hopened hclosed hholds hrelesem

theorem Inv.closeRele (h : r.Inv) (hen : r.global.Enabled (.closeRele fd))
    (hnext : r.global.next (.closeRele fd) = .ok s') :
    Inv ⟨s', record r.log (happened r.global (.closeRele fd))⟩ := by
  have hbase := h.base.closeRele hen hnext
  obtain ⟨e, he, hstopped⟩ := h.lock fd hen
  simp only [Global.next, he] at hnext
  obtain rfl := Except.ok.inj hnext
  simp only [happened, he, Option.map_some]
  refine h.change he rfl hbase rfl rfl ?_ ?_ ?_ ?_ ?_
  · intro fd' hglock
    exact absurd hglock (by simp)
  · exact fun c hc => Or.inl ⟨c, hc, rfl, rfl⟩
  · exact fun a _ => rfl
  · exact fun a ha => record_other ha
  · change Slot _ (users r.global e.addr)
      (record r.log (some (e.addr, posts e.sock e.sock.rele.rele)) e.addr)
    rw [record_self]
    exact (h.slots fd e he).closeRele hstopped

/-- `grid_close` passes a semaphore. -/
theorem Inv.wait {termsem relesem : Nat} {closing : Closing} (h : r.Inv)
    (he : r.global.socks fd = some e)
    (hold : e.closing = .termsem ∨ e.closing = .relesem)
    (hnew : closing = .relesem ∧ relesem = e.sock.relesem ∨
      closing = .released ∧ 0 < e.sock.relesem ∧ relesem = e.sock.relesem - 1)
    (hbase : (r.global.setSock fd { e with
      sock := { e.sock with termsem := termsem, relesem := relesem }
      closing := closing }).Inv) :
    Inv { r with global := r.global.setSock fd { e with
      sock := { e.sock with termsem := termsem, relesem := relesem }, closing := closing } } := by
  refine h.change he rfl hbase rfl rfl ?_ ?_ ?_ ?_ ?_
  · intro fd' hglock
    refine Or.inr ⟨?_, hglock⟩
    intro hfd
    obtain ⟨e', he', hstopped⟩ := h.lock fd' hglock
    rw [hfd, he] at he'
    obtain rfl := Option.some.inj he'
    rcases hold with hold | hold
    · exact absurd (hold.symm.trans hstopped) (by simp)
    · exact absurd (hold.symm.trans hstopped) (by simp)
  · exact fun c hc => Or.inl ⟨c, hc, rfl, rfl⟩
  · exact fun a _ => rfl
  · exact fun a _ => rfl
  · exact (h.slots fd e he).wait hold hnew

theorem Inv.waitTermsem (h : r.Inv) (hen : r.global.Enabled (.waitTermsem fd))
    (hnext : r.global.next (.waitTermsem fd) = .ok s') : Inv ⟨s', r.log⟩ := by
  have hbase := h.base.waitTermsem hnext
  obtain ⟨e, he, hclosing, -⟩ := hen
  have he : r.global.socks fd = some e := he
  simp only [Global.next, he] at hnext
  obtain rfl := Except.ok.inj hnext
  exact h.wait he (Or.inl hclosing) (Or.inl ⟨rfl, rfl⟩) hbase

theorem Inv.waitRelesem (h : r.Inv) (hen : r.global.Enabled (.waitRelesem fd))
    (hnext : r.global.next (.waitRelesem fd) = .ok s') : Inv ⟨s', r.log⟩ := by
  have hbase := h.base.waitRelesem hnext
  obtain ⟨e, he, hclosing, hsem⟩ := hen
  have he : r.global.socks fd = some e := he
  simp only [Global.next, he] at hnext
  obtain rfl := Except.ok.inj hnext
  exact h.wait he (Or.inr hclosing) (Or.inr ⟨rfl, hsem, rfl⟩) hbase

theorem Inv.termZombify (h : r.Inv) (hnext : r.global.next .termZombify = .ok s') :
    Inv ⟨s', r.log⟩ := by
  have hbase := h.base.termZombify hnext
  simp only [Global.next] at hnext
  split at hnext
  · rename_i i hlock
    split at hnext
    · obtain rfl := Except.ok.inj hnext
      refine h.keep rfl hbase rfl rfl ?_ ?_ ?_ ?_
      · exact fun fd => Or.inl (by simp)
      · exact fun c hc => ⟨c, hc, rfl, rfl⟩
      · exact fun a => rfl
      · rfl
    · rename_i e he
      obtain ⟨sock, hzombify, hnext⟩ := bind_eq_ok_iff.mp hnext
      obtain rfl := Except.ok.inj hnext
      refine h.quiet he (zombify_quiet hzombify) rfl hbase rfl rfl ?_ ?_ ?_ ?_
      · exact fun fd hglock => absurd hglock (by simp)
      · exact fun c hc => ⟨c, hc, rfl, rfl⟩
      · exact fun a => rfl
      · rfl
  · exact Except.ok.inj hnext ▸ h
  · exact Except.ok.inj hnext ▸ h

theorem Inv.env {l : Sock.Label} (h : r.Inv) (hen : r.global.Enabled (.env fd l))
    (hnext : r.global.next (.env fd l) = .ok s') : Inv ⟨s', r.log⟩ := by
  have hbase := h.base.env hen hnext
  obtain ⟨-, -, -, hl, -⟩ := hen
  simp only [Global.next] at hnext
  split at hnext
  · exact absurd hnext (by simp)
  rename_i e he
  obtain ⟨sock, hsock, hnext⟩ := bind_eq_ok_iff.mp hnext
  obtain rfl := Except.ok.inj hnext
  refine h.quiet he (env_quiet hl hsock) rfl hbase rfl rfl ?_ ?_ ?_ ?_
  · exact fun fd' hglock => hglock
  · exact fun c hc => ⟨c, hc, rfl, rfl⟩
  · exact fun a => rfl
  · rfl

/-- The global lock is taken by `grid_term`, or released by it. -/
theorem Inv.glock {zombie : Bool} {glock : Glock} (h : r.Inv) (hglock : ∀ fd, glock ≠ .close fd)
    (hbase : ({ r.global with zombie := zombie, glock := glock } : Global).Inv) :
    Inv { r with global := { r.global with zombie := zombie, glock := glock } } := by
  refine h.keep rfl hbase rfl rfl ?_ ?_ ?_ ?_
  · exact fun fd => Or.inl (hglock fd)
  · exact fun c hc => ⟨c, hc, rfl, rfl⟩
  · exact fun a => rfl
  · rfl

theorem Inv.term (h : r.Inv) (hnext : r.global.next .term = .ok s') : Inv ⟨s', r.log⟩ := by
  have hbase := h.base.term hnext
  obtain rfl := Except.ok.inj (show Except.ok _ = Except.ok s' from hnext)
  exact h.glock (by simp) hbase

theorem Inv.termEnd (h : r.Inv) (hen : r.global.Enabled .termEnd)
    (hnext : r.global.next .termEnd = .ok s') : Inv ⟨s', r.log⟩ := by
  have hbase := h.base.termEnd hen hnext
  obtain rfl := Except.ok.inj (show Except.ok _ = Except.ok s' from hnext)
  exact h.glock (by simp) hbase

theorem Inv.socket {kind : SockKind} (h : r.Inv)
    (hnext : r.global.next (.socket kind) = .ok s') : Inv ⟨s', r.log⟩ := by
  have hbase := h.base.socket hnext
  obtain ⟨res, hsocket, hnext⟩ := bind_eq_ok_iff.mp hnext
  unfold Global.gridSocket at hsocket
  split at hsocket
  · obtain rfl := Except.ok.inj hsocket
    exact Except.ok.inj hnext ▸ h
  split at hsocket
  · obtain rfl := Except.ok.inj hsocket
    exact Except.ok.inj hnext ▸ h
  rename_i fd unused hunused
  obtain rfl := Except.ok.inj hsocket
  obtain rfl := Except.ok.inj hnext
  have hempty := h.unusedFree fd (hunused ▸ List.mem_cons_self)
  have honce := hunused ▸ h.unusedOnce
  have hlt : ∀ fd' e', r.global.socks fd' = some e' → e'.addr ≠ r.global.addr := by
    intro fd' e' he'
    have haddr := h.base.addrs fd' e' he'
    omega
  have hne : ∀ fd' e', r.global.socks fd' = some e' → fd' ≠ fd := by
    intro fd' e' he' hfd
    rw [hfd, hempty] at he'
    exact absurd he' (by simp)
  have hold : ∀ fd' e', r.global.socks fd' = some e' → Function.update r.global.socks fd
      (some ⟨r.global.addr, kind, { entered := true, state := .active, fsm := .active },
        .opened⟩) fd' = some e' := by
    intro fd' e' he'
    rw [Function.update_of_ne (hne fd' e' he')]
    exact he'
  refine ⟨hbase, ?_, (List.nodup_cons.mp honce).2, ?_, ?_, ?_, ?_, ?_, h.history⟩
  · intro fd' hmem
    change Function.update r.global.socks fd _ fd' = none
    rw [Function.update_of_ne]
    · exact h.unusedFree fd' (hunused ▸ List.mem_cons_of_mem fd hmem)
    · intro hfd
      exact (List.nodup_cons.mp honce).1 (hfd ▸ hmem)
  · intro fd₁ fd₂ e₁ e₂ h₁ h₂ heq
    change Function.update r.global.socks fd _ fd₁ = some e₁ at h₁
    change Function.update r.global.socks fd _ fd₂ = some e₂ at h₂
    rw [Function.update_apply] at h₁ h₂
    split at h₁
    · rename_i hfd₁
      obtain rfl := Option.some.inj h₁
      split at h₂
      · rename_i hfd₂
        rw [hfd₁, hfd₂]
      · exact absurd heq.symm (hlt fd₂ e₂ h₂)
    · split at h₂
      · obtain rfl := Option.some.inj h₂
        exact absurd heq (hlt fd₁ e₁ h₁)
      · exact h.distinct fd₁ fd₂ e₁ e₂ h₁ h₂ heq
  · intro a ha
    exact h.fresh a (Nat.le_of_succ_le ha)
  · intro fd' hglock
    obtain ⟨e', he', hstopped⟩ := h.lock fd' hglock
    exact ⟨e', hold fd' e' he', hstopped⟩
  · intro c hc
    obtain ⟨e', he'⟩ := h.held c hc
    obtain ⟨he', haddr⟩ := Global.held_eq_some he'
    exact ⟨e', held_of_slot (hold c.fd e' he') haddr⟩
  · intro fd' e' he'
    change Function.update r.global.socks fd _ fd' = some e' at he'
    rw [Function.update_apply] at he'
    split at he'
    · obtain rfl := Option.some.inj he'
      have hnobody : users r.global r.global.addr = 0 := by
        apply users_none
        intro c hc haddr
        have hlt := (h.base.calls c hc).1
        omega
      refine ⟨fun hne => absurd rfl hne, ?_, by simp, by simp, 0, ?_⟩
      · change 1 = users r.global r.global.addr + 1
        rw [hnobody]
      · exact h.fresh r.global.addr (Nat.le_refl _)
    · exact h.slots fd' e' he'

/-- All slots are free when the list of the free ones is as long as the table. -/
theorem free_of_length {unused : List Nat} {max : Nat} (honce : unused.Nodup)
    (hlt : ∀ fd ∈ unused, fd < max) (hlength : unused.length = max) {fd : Nat}
    (hfd : fd < max) : fd ∈ unused := by
  have hsub : unused.Subperm (List.range max) :=
    honce.subperm fun fd hmem => List.mem_range.mpr (hlt fd hmem)
  have hperm := hsub.perm_of_length_le (by rw [List.length_range]; exact Nat.le_of_eq hlength.symm)
  exact hperm.mem_iff.mpr (List.mem_range.mpr hfd)

theorem Inv.sockTerm (h : r.Inv) (hen : r.global.Enabled (.sockTerm fd))
    (hnext : r.global.next (.sockTerm fd) = .ok s') :
    Inv ⟨s', record r.log (happened r.global (.sockTerm fd))⟩ := by
  have hbase := h.base.sockTerm hnext
  obtain ⟨hfree, e, he, hreleased, -⟩ := hen
  have he : r.global.socks fd = some e := he
  simp only [Global.next, he] at hnext
  obtain ⟨sock, -, hnext⟩ := bind_eq_ok_iff.mp hnext
  obtain rfl := Except.ok.inj hnext
  simp only [happened, he, Option.map_some]
  have hslot := h.slots fd e he
  have hzero := hslot.released (Or.inl hreleased)
  have hnobody : users r.global e.addr = 0 := by
    have hcount := hslot.count
    omega
  have hold : ∀ fd' e', Function.update r.global.socks fd none fd' = some e' →
      fd' ≠ fd ∧ r.global.socks fd' = some e' := by
    intro fd' e' he'
    rw [Function.update_apply] at he'
    split at he'
    · exact absurd he' (by simp)
    · rename_i hfd
      exact ⟨hfd, he'⟩
  have hother : ∀ fd' e', fd' ≠ fd → r.global.socks fd' = some e' → e'.addr ≠ e.addr := by
    intro fd' e' hne he' heq
    exact hne (h.distinct fd' fd e' e he' he heq)
  have hnotfree : fd ∉ r.global.unused := by
    intro hmem
    rw [h.unusedFree fd hmem] at he
    exact absurd he (by simp)
  have honce : (fd :: r.global.unused).Nodup := List.nodup_cons.mpr ⟨hnotfree, h.unusedOnce⟩
  have hnone : ∀ fd' ∈ fd :: r.global.unused, Function.update r.global.socks fd none fd' = none := by
    intro fd' hmem
    rw [Function.update_apply]
    split
    · rfl
    · rename_i hfd
      exact h.unusedFree fd' ((List.mem_cons.mp hmem).resolve_left hfd)
  refine ⟨hbase, ?_, ?_, ?_, ?_, ?_, ?_, ?_, ?_⟩
  · intro fd' hmem
    simp only at hmem
    split at hmem
    · rename_i hlength
      apply hnone
      apply free_of_length honce _ hlength (List.mem_range.mp hmem)
      intro fd'' hmem''
      rcases List.mem_cons.mp hmem'' with rfl | hmem''
      · exact h.base.slots fd'' (by rw [he]; simp)
      · exact h.base.unused fd'' hmem''
    · exact hnone fd' hmem
  · simp only
    split
    · exact List.nodup_range
    · exact honce
  · intro fd₁ fd₂ e₁ e₂ h₁ h₂ heq
    exact h.distinct fd₁ fd₂ e₁ e₂ (hold fd₁ e₁ h₁).2 (hold fd₂ e₂ h₂).2 heq
  · intro a ha
    have hlt := h.base.addrs fd e he
    have hne : a ≠ e.addr := by
      intro heq
      simp only at ha
      omega
    change record r.log (some (e.addr, [.free])) a = []
    rw [record_other hne]
    exact h.fresh a ha
  · intro fd' hglock
    exact absurd (hfree.symm.trans hglock) (by simp)
  · intro c hc
    obtain ⟨e', he'⟩ := h.held c hc
    obtain ⟨he', haddr⟩ := Global.held_eq_some he'
    have hne : c.fd ≠ fd := by
      intro hfd
      rw [hfd, he] at he'
      obtain rfl := Option.some.inj he'
      have hpos : 0 < users r.global c.addr := users_pos hc
      rw [← haddr, hnobody] at hpos
      exact absurd hpos (by simp)
    refine ⟨e', held_of_slot ?_ haddr⟩
    change Function.update r.global.socks fd none c.fd = some e'
    rw [Function.update_of_ne hne]
    exact he'
  · intro fd' e' he'
    obtain ⟨hne, he'⟩ := hold fd' e' he'
    have hslot' := h.slots fd' e' he'
    change Slot e' (users r.global e'.addr) (record r.log (some (e.addr, [.free])) e'.addr)
    rw [record_other (hother fd' e' hne he')]
    exact hslot'
  · intro a
    change ∃ n k, record r.log (some (e.addr, [.free])) a =
      List.replicate n .hold ++ ending.take k
    by_cases ha : a = e.addr
    · obtain ⟨n, hlog⟩ := hslot.log
      refine ⟨n, 3, ?_⟩
      have hstage : stage e = 2 := by
        simp only [stage, hreleased, hzero, if_true]
      rw [ha, record_self, hlog, hstage, List.append_assoc]
      rfl
    · rw [record_other ha]
      exact h.history a

/-! ## Runs -/

theorem Inv.init : Inv {} := by
  refine ⟨Global.inv_init, ?_, ?_, ?_, ?_, ?_, ?_, ?_, ?_⟩
  · exact fun fd _ => rfl
  · simp only [List.nodup_range]
  · exact fun fd fd' e e' he => absurd he (by simp)
  · exact fun a _ => rfl
  · exact fun fd hglock => absurd hglock (by simp)
  · exact fun c hc => absurd hc List.not_mem_nil
  · exact fun fd e he => absurd he (by simp)
  · exact fun a => ⟨0, 0, rfl⟩

theorem Inv.step {l : Global.Label} (h : r.Inv) (hen : r.global.Enabled l)
    (hnext : r.global.next l = .ok s') : Inv ⟨s', record r.log (happened r.global l)⟩ := by
  cases l with
  | socket kind => exact h.socket hnext
  | call fn n => exact h.call hnext
  | enter i attempt => exact h.enter hnext
  | wake i res => exact h.wake hen hnext
  | «return» i => exact h.return hnext
  | close n => exact h.close hen hnext
  | closeRele fd => exact h.closeRele hen hnext
  | waitTermsem fd => exact h.waitTermsem hen hnext
  | waitRelesem fd => exact h.waitRelesem hen hnext
  | sockTerm fd => exact h.sockTerm hen hnext
  | term => exact h.term hnext
  | termZombify => exact h.termZombify hnext
  | termEnd => exact h.termEnd hen hnext
  | env fd l => exact h.env hen hnext

theorem next_cases {l : Label} (hen : r.Enabled l) (hnext : r.next l = some r') :
    (∃ l' s', l = .step l' ∧ r.global.Enabled l' ∧ r.global.next l' = .ok s' ∧
      r' = ⟨s', record r.log (happened r.global l')⟩) ∨
    ∃ i s', l = .refuse i ∧ Holds.refuse r.global i = some s' ∧ r' = { r with global := s' } := by
  cases l with
  | step l' =>
      simp only [Holds.next] at hnext
      cases hglobal : r.global.next l' with
      | error err => simp [hglobal, Except.toOption] at hnext
      | ok s' =>
          rw [hglobal] at hnext
          exact Or.inl ⟨l', s', rfl, hen, hglobal, (Option.some.inj hnext).symm⟩
  | refuse i =>
      simp only [Holds.next] at hnext
      obtain ⟨s', hrefuse, hr'⟩ := Option.map_eq_some_iff.mp hnext
      exact Or.inr ⟨i, s', rfl, hrefuse, hr'.symm⟩

theorem Inv.of_reachable (hr : system.Reachable r) : r.Inv := by
  refine hr.invariant ?_ ?_
  · intro r hinit
    rw [show r = {} from hinit]
    exact Inv.init
  · rintro r l r' _ hinv ⟨hen, hnext⟩
    rcases next_cases hen hnext with ⟨l', s', rfl, hen', hstep, rfl⟩ | ⟨i, s', rfl, hrefuse, rfl⟩
    · exact hinv.step hen' hstep
    · exact hinv.refuse hrefuse

theorem mem_history {n k : Nat} {x : HoldEvent} (hx : x ≠ .hold) :
    x ∈ List.replicate n .hold ++ ending.take k ↔ x ∈ ending.take k := by
  rw [List.mem_append]
  constructor
  · rintro (hmem | hmem)
    · exact absurd (List.eq_of_mem_replicate hmem) hx
    · exact hmem
  · exact Or.inr

theorem stage_le (e : OpenSock) : stage e ≤ 2 := by
  unfold stage
  split
  · omega
  · omega
  · split <;> omega

/-- The end of a socket is recorded once it is gone only. -/
theorem Slot.not_free (h : Slot e n log) : .free ∉ log := by
  obtain ⟨m, hlog⟩ := h.log
  rw [hlog, mem_history (by simp)]
  intro hmem
  have htwo : HoldEvent.free ∈ ending.take 2 := List.take_subset_take_left ending (stage_le e) hmem
  exact absurd htwo (by decide)

/-- The semaphore is posted when the last hold is dropped. -/
theorem Slot.post_iff (h : Slot e n log) : .post ∈ log ↔ e.sock.holds = 0 := by
  obtain ⟨m, hlog⟩ := h.log
  have hcount := h.count
  rw [hlog, mem_history (by simp)]
  unfold stage
  split
  · rename_i hclosing
    simp only [hclosing, ownHolds] at hcount
    simp [hcount]
  · rename_i hclosing
    simp only [hclosing, ownHolds] at hcount
    simp [hcount, ending]
  · split
    · rename_i hzero
      simp [hzero, ending]
    · rename_i hne
      simp [hne, ending]

/-- The holds of all sockets, in all runs. -/
theorem holds_sound (hr : system.Reachable r) : r.Sound := by
  have h := Inv.of_reachable hr
  refine ⟨?_, h.held, h.history, ?_, ?_⟩
  · exact fun fd e he => (h.slots fd e he).count
  · exact fun fd e he => (h.slots fd e he).post_iff
  · intro addr hfree fd e he haddr
    exact (h.slots fd e he).not_free (haddr ▸ hfree)

/-! ## A close while a call is in progress -/

/-- A call holds the socket when it is closed, and drops its hold last. -/
def closeLabels : List Label :=
  [.step (.socket Sock.plainKind), .step (.env 0 (.leave false false)),
    .step (.call (.recv true) 0), .step (.call .setsockopt 0), .refuse 1, .step (.return 1),
    .step (.close 0), .step (.env 0 (.leave false false)), .step (.closeRele 0),
    .step (.enter 0 .zero), .step (.env 0 (.leave false false)), .step (.return 0),
    .step (.waitTermsem 0), .step (.waitRelesem 0), .step (.sockTerm 0)]

theorem holds_sound_close : ∃ r : Holds, system.Reachable r ∧
    r.log 0 = [.hold, .hold, .hold, .stop, .post, .free] ∧ r.Sound := by
  have hrun : (System.follow (fun r l => if Enabled r l then r.next l else none) {}
      closeLabels).any (fun r => decide (r.log 0 = [.hold, .hold, .hold, .stop, .post, .free])) =
        true := by
    decide +kernel
  obtain ⟨r, hfollow, hlog⟩ := (Option.any_eq_true _ _).mp hrun
  have hr : system.Reachable r := by
    apply System.Reachable.follow _ (.start rfl) hfollow
    intro r l r' h
    split at h
    · rename_i hen
      exact ⟨hen, h⟩
    · exact absurd h (by simp)
  exact ⟨r, hr, of_decide_eq_true hlog, holds_sound hr⟩

end Holds

end GridMq.Core
