import GridMq.Core.Global

set_option autoImplicit false

/-!
# Runs of the library

What holds of the open sockets and of the calls in progress, before and after
`grid_term`, and what is left of its contract.
-/

namespace GridMq.Core

open GridMq.Aio GridMq.Library

namespace Global

variable {s : Global}

/-! ## Sockets in use -/

/-- A socket that was not closed. -/
structure Usable (kind : SockKind) (s : Sock) : Prop where
  fsm : s.fsm = .active
  state : s.state = .active ∨ s.state = .zombie
  signals : s.Signals kind
  flags : s.state = .zombie → s.flagIn = true ∧ s.flagOut = true

/-- The state of a socket with its descriptors. -/
def Same (s s' : Sock) : Prop :=
  s'.fsm = s.fsm ∧ s'.state = s.state ∧ s'.rcvfd = s.rcvfd ∧ s'.sndfd = s.sndfd ∧
    s'.flagIn = s.flagIn ∧ s'.flagOut = s.flagOut

theorem Usable.of_same {kind : SockKind} {s s' : Sock} (h : Usable kind s) (hsame : Same s s') :
    Usable kind s' := by
  obtain ⟨hfsm, hstate, hrcvfd, hsndfd, hin, hout⟩ := hsame
  refine ⟨hfsm.trans h.fsm, by rw [hstate]; exact h.state, ⟨?_, ?_⟩, ?_⟩
  · rw [hrcvfd, hin]
    exact h.signals.rcvfd
  · rw [hsndfd, hout]
    exact h.signals.sndfd
  · rw [hstate, hin, hout]
    exact h.flags

/-- What a socket in use becomes: it stays in use, and a zombie stays one. -/
def Keeps (kind : SockKind) (s s' : Sock) : Prop :=
  Usable kind s → Usable kind s' ∧ (s.state = .zombie → s'.state = .zombie)

theorem Same.keeps {kind : SockKind} {s s' : Sock} (h : Same s s') : Keeps kind s s' :=
  fun husable => ⟨husable.of_same h, fun hzombie => h.2.1.trans hzombie⟩

theorem Keeps.trans {kind : SockKind} {s₁ s₂ s₃ : Sock} (h : Keeps kind s₁ s₂)
    (h' : Keeps kind s₂ s₃) : Keeps kind s₁ s₃ := by
  intro husable
  obtain ⟨husable', hzombie⟩ := h husable
  obtain ⟨husable'', hzombie'⟩ := h' husable'
  exact ⟨husable'', fun hz => hzombie' (hzombie hz)⟩

theorem process_keeps {kind : SockKind} {s s' : Sock} {e : SockEvent}
    (h : s.process kind e = .ok s') : Keeps kind s s' := by
  intro husable
  have hother : (∀ eid, e ≠ .epAction eid) →
      (if s.fsm = .stopping then s.shutdown kind e else s.handler e) = .ok s' → Same s s' := by
    intro he h
    rw [if_neg (by rw [husable.fsm]; simp)] at h
    rcases husable.state with hstate | hstate
    · cases e with
      | epStopped n =>
          simp only [Sock.handler, hstate] at h
          obtain ⟨-, rfl⟩ := SockUse.freeEp_effect h
          exact ⟨rfl, rfl, rfl, rfl, rfl, rfl⟩
      | pipe eid pipe out =>
          simp only [Sock.handler, hstate] at h
          obtain rfl := Except.ok.inj h
          exact ⟨rfl, rfl, rfl, rfl, rfl, rfl⟩
      | epAction eid => exact absurd rfl (he eid)
      | stopped => simp only [Sock.handler, hstate, reduceCtorEq] at h
    · simp only [Sock.handler, hstate, reduceCtorEq] at h
  cases e with
  | epAction eid =>
      simp only [Sock.process] at h
      cases hfind : s.findEp eid with
      | none => simp [hfind] at h
      | some ep =>
          simp only [hfind] at h
          obtain ⟨ep', -, h⟩ := bind_eq_ok_iff.mp h
          obtain ⟨events, -, h⟩ := bind_eq_ok_iff.mp h
          obtain rfl := Except.ok.inj h
          exact Same.keeps ⟨rfl, rfl, rfl, rfl, rfl, rfl⟩ husable
  | epStopped eid => exact (hother (by simp) h).keeps husable
  | pipe eid pipe out => exact (hother (by simp) h).keeps husable
  | stopped => exact (hother (by simp) h).keeps husable

theorem onleave_keeps {kind : SockKind} {s s' : Sock} {canRecv canSend : Bool}
    (h : s.onleave kind canRecv canSend = .ok s') : Keeps kind s s' := by
  intro husable
  unfold Sock.onleave at h
  split at h
  · obtain rfl := Except.ok.inj h
    exact ⟨husable, id⟩
  · rename_i hactive
    have hactive : s.state = .active := by simpa using hactive
    obtain ⟨rcvfd, flagIn, hrcvfd, hrcv⟩ := Sock.adjust_spec canRecv husable.signals.rcvfd
    obtain ⟨sndfd, flagOut, hsndfd, hsnd⟩ := Sock.adjust_spec canSend husable.signals.sndfd
    rw [hrcvfd, ok_bind, hsndfd] at h
    obtain rfl := Except.ok.inj h
    refine ⟨⟨husable.fsm, husable.state, ⟨hrcv, hsnd⟩, fun hzombie => ?_⟩, fun hzombie => ?_⟩
    · exact absurd (hactive.symm.trans hzombie) (by simp)
    · exact absurd (hactive.symm.trans hzombie) (by simp)

/-- A socket in use that moves on its own. -/
theorem env_keeps {kind : SockKind} {s s' : Sock} {l : Sock.Label} (hl : SockUse.isEnv l = true)
    (h : s.next kind l = .ok s') : Keeps kind s s' := by
  cases l with
  | start =>
      intro husable
      obtain ⟨_, hfsm, -⟩ := bind_eq_ok_iff.mp h
      exact absurd (husable.fsm.symm.trans (gridAssert_eq_ok_iff.mp hfsm)) (by simp)
  | zombify => exact absurd hl (by simp [SockUse.isEnv])
  | stop => exact absurd hl (by simp [SockUse.isEnv])
  | addEp => exact absurd hl (by simp [SockUse.isEnv])
  | rmEp eid => exact absurd hl (by simp [SockUse.isEnv])
  | epReports eid =>
      simp only [Sock.next, Sock.epReports] at h
      split at h
      · exact absurd h (by simp)
      · obtain ⟨events, -, h⟩ := bind_eq_ok_iff.mp h
        obtain rfl := Except.ok.inj h
        exact Same.keeps ⟨rfl, rfl, rfl, rfl, rfl, rfl⟩
  | pipeEvent eid pipe out | sockbaseReports =>
      obtain ⟨events, -, h⟩ := bind_eq_ok_iff.mp h
      obtain rfl := Except.ok.inj h
      exact Same.keeps ⟨rfl, rfl, rfl, rfl, rfl, rfl⟩
  | deliver =>
      simp only [Sock.next] at h
      split at h
      · obtain rfl := Except.ok.inj h
        exact Same.keeps ⟨rfl, rfl, rfl, rfl, rfl, rfl⟩
      · rename_i e events hq
        have hpop : Keeps kind s { s with events := events } :=
          Same.keeps ⟨rfl, rfl, rfl, rfl, rfl, rfl⟩
        exact hpop.trans (process_keeps h)
  | leave canRecv canSend =>
      obtain ⟨s₁, hleave, h⟩ := bind_eq_ok_iff.mp h
      obtain rfl := Except.ok.inj h
      intro husable
      obtain ⟨husable', hzombie⟩ := onleave_keeps hleave husable
      exact ⟨husable'.of_same ⟨rfl, rfl, rfl, rfl, rfl, rfl⟩, hzombie⟩

/-- `grid_term` comes to a socket in use. -/
theorem zombify_usable {kind : SockKind} {s s' : Sock} (h : s.next kind .zombify = .ok s')
    (husable : Usable kind s) : Usable kind s' ∧ s'.state = .zombie := by
  rcases husable.state with hstate | hstate
  · simp only [Sock.next, Sock.zombify, husable.fsm, hstate] at h
    obtain rfl := Except.ok.inj h
    refine ⟨⟨rfl, Or.inr rfl, ⟨fun hno => ?_, fun hno => ?_⟩, fun _ => ⟨rfl, rfl⟩⟩, rfl⟩
    · have hset := Sock.signal_flag (husable.signals.rcvfd hno).1 (husable.signals.rcvfd hno).2
      simpa only [Sock.actionZombify, hno, and_true] using hset
    · have hset := Sock.signal_flag (husable.signals.sndfd hno).1 (husable.signals.sndfd hno).2
      simpa only [Sock.actionZombify, hno, and_true] using hset
  · simp only [Sock.next, Sock.zombify, husable.fsm, hstate, reduceCtorEq] at h

/-- A descriptor shows what its flag says, so that checking it again changes nothing. -/
theorem recheck_keeps {kind : SockKind} {s : Sock} {out woken : Bool}
    (hkind : if out then kind.nosend = false else kind.norecv = false) :
    Keeps kind s (recheck s out woken) := by
  intro husable
  cases woken with
  | false => exact ⟨husable, id⟩
  | true =>
      cases out with
      | true =>
          obtain ⟨hopen, hflag⟩ := husable.signals.sndfd hkind
          have hsame : (s.flagOut || decide s.sndfd.Readable) = s.flagOut := by
            cases hout : s.flagOut with
            | true => rfl
            | false => simp [Efd.Readable, hflag, hout]
          exact Same.keeps ⟨rfl, rfl, rfl, rfl, rfl, hsame⟩ husable
      | false =>
          obtain ⟨hopen, hflag⟩ := husable.signals.rcvfd hkind
          have hsame : (s.flagIn || decide s.rcvfd.Readable) = s.flagIn := by
            cases hin : s.flagIn with
            | true => rfl
            | false => simp [Efd.Readable, hflag, hin]
          exact Same.keeps ⟨rfl, rfl, rfl, rfl, hsame, rfl⟩ husable

/-- A call in the context of its socket. -/
theorem enter_keeps (e : OpenSock) (fn : Fn) (woken : Bool) (attempt : Attempt) :
    Keeps e.kind e.sock (enter e fn woken attempt).1 := by
  have hentered : Keeps e.kind e.sock { e.sock with entered := true } :=
    Same.keeps ⟨rfl, rfl, rfl, rfl, rfl, rfl⟩
  have hadd : Keeps e.kind e.sock
      (if attempt = .zero then ({ e.sock with entered := true } : Sock).addEp
        else { e.sock with entered := true }) := by
    split
    · exact Same.keeps ⟨rfl, rfl, rfl, rfl, rfl, rfl⟩
    · exact hentered
  cases fn with
  | setsockopt => exact hentered
  | getsockopt => exact hentered
  | bind => exact hadd
  | connect => exact hadd
  | shutdown eid =>
      simp only [enter, Sock.rmEp]
      cases e.sock.eps.find? (·.eid = eid) with
      | none => exact hentered
      | some ep => exact Same.keeps ⟨rfl, rfl, rfl, rfl, rfl, rfl⟩
  | send dontwait | recv dontwait =>
      simp only [enter]
      split
      · exact fun husable => ⟨husable, id⟩
      · rename_i hkind
        exact hentered.trans (recheck_keeps (by simpa using hkind))

/-! ## What holds in each state -/

/-- A function that can wait for a socket. -/
def Waits (kind : SockKind) : Fn → Prop
  | .send dontwait => dontwait = false ∧ kind.nosend = false
  | .recv dontwait => dontwait = false ∧ kind.norecv = false
  | _ => False

/-- A call waits, or has waited, for a socket that it can wait for. -/
def Sound (s : Global) (c : Pending) : Prop :=
  c.addr < s.addr ∧ (c.pc = .waiting ∨ c.pc = .entering true →
    ∀ e ∈ s.socks c.fd, e.addr = c.addr → Waits e.kind c.fn)

structure Inv (s : Global) : Prop where
  slots : ∀ fd, s.socks fd ≠ none → fd < gridMaxSockets
  unused : ∀ fd ∈ s.unused, fd < gridMaxSockets
  addrs : ∀ fd, ∀ e ∈ s.socks fd, e.addr < s.addr
  usable : ∀ fd, ∀ e ∈ s.socks fd, e.closing = .opened → Usable e.kind e.sock
  zombies : s.zombie = true → ∀ fd, ∀ e ∈ s.socks fd, e.closing = .opened →
    (∀ i, s.glock = .term i → fd < i) → e.sock.state = .zombie
  calls : ∀ c ∈ s.calls, s.Sound c

/-- The socket in a slot changes. -/
theorem Inv.setSock {fd : Nat} {e : OpenSock} (h : s.Inv) (he : s.socks fd = some e)
    (sock : Sock) (closing : Closing) (hclosing : closing = .opened → e.closing = .opened)
    (hkeeps : closing = .opened → Keeps e.kind e.sock sock) :
    (s.setSock fd { e with sock := sock, closing := closing }).Inv := by
  have hcases : ∀ fd' e', (s.setSock fd { e with sock := sock, closing := closing }).socks fd' =
      some e' → fd' = fd ∧ e' = { e with sock := sock, closing := closing } ∨
        s.socks fd' = some e' := by
    intro fd' e' he'
    by_cases heq : fd' = fd
    · subst heq
      exact Or.inl ⟨rfl, by simpa [Global.setSock] using he'.symm⟩
    · exact Or.inr (by simpa [Global.setSock, Function.update_of_ne heq] using he')
  refine ⟨fun fd' hne => ?_, h.unused, fun fd' e' he' => ?_, fun fd' e' he' hopened => ?_,
    fun hz fd' e' he' hopened hpast => ?_, fun c hc => ⟨(h.calls c hc).1, fun hpc e' he' => ?_⟩⟩
  · obtain ⟨e', he'⟩ := Option.ne_none_iff_exists'.mp hne
    rcases hcases fd' e' he' with ⟨rfl, -⟩ | hold
    · exact h.slots fd' (by simp [he])
    · exact h.slots fd' (by simp [hold])
  · rcases hcases fd' e' he' with ⟨rfl, rfl⟩ | hold
    · exact h.addrs fd' e he
    · exact h.addrs fd' e' hold
  · rcases hcases fd' e' he' with ⟨rfl, rfl⟩ | hold
    · exact (hkeeps hopened (h.usable fd' e he (hclosing hopened))).1
    · exact h.usable fd' e' hold hopened
  · rcases hcases fd' e' he' with ⟨rfl, rfl⟩ | hold
    · exact (hkeeps hopened (h.usable fd' e he (hclosing hopened))).2
        (h.zombies hz fd' e he (hclosing hopened) hpast)
    · exact h.zombies hz fd' e' hold hopened hpast
  · rcases hcases c.fd e' he' with ⟨heq, rfl⟩ | hold
    · exact (h.calls c hc).2 hpc e (by rw [heq]; exact he)
    · exact (h.calls c hc).2 hpc e' hold

/-- The calls in progress change. -/
theorem Inv.setCalls (h : s.Inv) (calls : List Pending) (hcalls : ∀ c ∈ calls, s.Sound c) :
    ({ s with calls := calls } : Global).Inv :=
  ⟨h.slots, h.unused, h.addrs, h.usable, h.zombies, hcalls⟩

/-- The global lock is dropped, by anyone but `grid_term`. -/
theorem Inv.setGlock (h : s.Inv) (glock : Glock) (hterm : ∀ i, s.glock ≠ .term i) :
    ({ s with glock := glock } : Global).Inv :=
  ⟨h.slots, h.unused, h.addrs, h.usable, fun hz fd e he hopened _ =>
    h.zombies hz fd e he hopened fun i hi => absurd hi (hterm i), h.calls⟩

/-- What a hold finds. -/
theorem holdSocketLocked_ok {n : Int} {fd : Nat} {e' : OpenSock}
    (h : s.holdSocketLocked n = .ok (fd, e')) :
    s.zombie = false ∧ ∃ e, s.socks fd = some e ∧
      e' = { e with sock := { e.sock with holds := e.sock.holds + 1 } } := by
  unfold holdSocketLocked at h
  split at h
  · exact absurd h (by simp)
  split at h
  · exact absurd h (by simp)
  rename_i hzombie
  split at h
  · exact absurd h (by simp)
  split at h
  · exact absurd h (by simp)
  rename_i e he
  refine ⟨by simpa using hzombie, ?_⟩
  cases hstate : e.sock.state with
  | active | init =>
      simp only [Sock.hold, hstate] at h
      obtain ⟨rfl, rfl⟩ := Prod.mk.inj (Except.ok.inj h)
      exact ⟨e, he, by simp [hstate]⟩
  | zombie => simp only [Sock.hold, hstate, reduceCtorEq] at h
  | stoppingEps => simp only [Sock.hold, hstate, reduceCtorEq] at h
  | stopping => simp only [Sock.hold, hstate, reduceCtorEq] at h
  | fini => simp only [Sock.hold, hstate, reduceCtorEq] at h

/-! ## Steps -/

/-- A socket is created. -/
theorem Inv.created {kind : SockKind} {fd : Nat} {unused : List Nat} {sock : Sock} (h : s.Inv)
    (hz : s.zombie = false) (hfree : s.unused = fd :: unused) (husable : Usable kind sock) :
    ({ s with
      socks := Function.update s.socks fd (some ⟨s.addr, kind, sock, .opened⟩)
      unused := unused, addr := s.addr + 1 } : Global).Inv := by
  have hcases : ∀ fd' e', Function.update s.socks fd (some ⟨s.addr, kind, sock, .opened⟩) fd' =
      some e' → fd' = fd ∧ e' = ⟨s.addr, kind, sock, .opened⟩ ∨ s.socks fd' = some e' := by
    intro fd' e' he'
    by_cases heq : fd' = fd
    · subst heq
      exact Or.inl ⟨rfl, by simpa using he'.symm⟩
    · exact Or.inr (by simpa [Function.update_of_ne heq] using he')
  refine ⟨fun fd' hne => ?_, fun fd' hfd' => h.unused fd' (hfree ▸ List.mem_cons_of_mem fd hfd'),
    fun fd' e' he' => ?_, fun fd' e' he' hopened => ?_, fun hz' => ?_,
    fun c hc => ⟨Nat.lt_succ_of_lt (h.calls c hc).1, fun hpc e' he' haddr => ?_⟩⟩
  · obtain ⟨e', he'⟩ := Option.ne_none_iff_exists'.mp hne
    rcases hcases fd' e' he' with ⟨rfl, -⟩ | hold
    · exact h.unused fd' (hfree ▸ List.mem_cons_self)
    · exact h.slots fd' (by simp [hold])
  · rcases hcases fd' e' he' with ⟨-, rfl⟩ | hold
    · exact Nat.lt_succ_self s.addr
    · exact Nat.lt_succ_of_lt (h.addrs fd' e' hold)
  · rcases hcases fd' e' he' with ⟨-, rfl⟩ | hold
    · exact husable
    · exact h.usable fd' e' hold hopened
  · exact absurd (hz.symm.trans hz') (by simp)
  · rcases hcases c.fd e' he' with ⟨-, rfl⟩ | hold
    · -- no call holds a socket that did not exist
      have hlt := (h.calls c hc).1
      simp only at haddr
      omega
    · exact (h.calls c hc).2 hpc e' hold haddr

theorem Inv.socket {s' : Global} {kind : SockKind} (h : s.Inv)
    (hnext : s.next (.socket kind) = .ok s') : s'.Inv := by
  obtain ⟨r, hsocket, hnext⟩ := bind_eq_ok_iff.mp hnext
  unfold gridSocket at hsocket
  split at hsocket
  · obtain rfl := Except.ok.inj hsocket
    exact Except.ok.inj hnext ▸ h
  rename_i hzombie
  split at hsocket
  · obtain rfl := Except.ok.inj hsocket
    exact Except.ok.inj hnext ▸ h
  rename_i fd unused hfree
  obtain rfl := Except.ok.inj hsocket
  obtain rfl := Except.ok.inj hnext
  refine h.created (by simpa using hzombie) hfree ⟨rfl, Or.inl rfl, ⟨?_, ?_⟩, fun hz => ?_⟩
  · exact fun _ => ⟨rfl, rfl⟩
  · exact fun _ => ⟨rfl, rfl⟩
  · exact absurd hz (by simp)

theorem Inv.call {s' : Global} {fn : Fn} {n : Int} (h : s.Inv)
    (hnext : s.next (.call fn n) = .ok s') : s'.Inv := by
  simp only [next, hold] at hnext
  cases hhold : s.holdSocketLocked n with
  | error e =>
      simp only [hhold] at hnext
      exact Except.ok.inj hnext ▸ h
  | ok found =>
      obtain ⟨fd, e'⟩ := found
      obtain ⟨-, e, he, rfl⟩ := holdSocketLocked_ok hhold
      simp only [hhold] at hnext
      obtain rfl := Except.ok.inj hnext
      have hset := h.setSock he { e.sock with holds := e.sock.holds + 1 } e.closing id
        fun _ => Same.keeps ⟨rfl, rfl, rfl, rfl, rfl, rfl⟩
      refine hset.setCalls _ fun c hc => ?_
      rcases List.mem_append.mp hc with hc | hc
      · exact hset.calls c hc
      · obtain rfl := List.mem_singleton.mp hc
        exact ⟨h.addrs fd e he, fun hpc => by simp at hpc⟩

/-- Only a call that can wait comes to wait. -/
theorem enter_waits {e : OpenSock} {fn : Fn} {woken : Bool} {attempt : Attempt}
    (h : (enter e fn woken attempt).2 = .waiting ∨
      (enter e fn woken attempt).2 = .entering true) : Waits e.kind fn := by
  have hresult : ∀ attempt, ¬ (result attempt = .waiting ∨ result attempt = .entering true) := by
    intro attempt
    cases attempt <;> simp [result]
  have hoption : ∀ sock attempt, ¬ (option sock attempt = .waiting ∨
      option sock attempt = .entering true) := by
    intro sock attempt
    unfold option
    split
    · simp
    · exact hresult attempt
  have htransfer : ∀ sock dontwait attempt, transfer sock dontwait attempt = .waiting ∨
      transfer sock dontwait attempt = .entering true → dontwait = false := by
    intro sock dontwait attempt h
    cases dontwait with
    | false => rfl
    | true => cases attempt <;> cases hstate : sock.state <;> simp [transfer, hstate] at h
  cases fn with
  | setsockopt => exact absurd h (hoption _ attempt)
  | getsockopt => exact absurd h (hoption _ attempt)
  | bind => exact absurd h (hresult attempt)
  | connect => exact absurd h (hresult attempt)
  | shutdown eid =>
      simp only [enter] at h
      split at h <;> simp at h
  | send dontwait | recv dontwait =>
      simp only [enter] at h
      split at h
      · simp at h
      · rename_i hkind
        exact ⟨htransfer _ dontwait attempt h, by simpa using hkind⟩

/-- The socket that a call holds. -/
theorem held_eq_some {c : Pending} {e : OpenSock} (h : s.held c = some e) :
    s.socks c.fd = some e ∧ e.addr = c.addr := by
  simpa [held, Option.filter_eq_some_iff] using h

theorem Inv.enter {s' : Global} {i : Nat} {attempt : Attempt} (h : s.Inv)
    (hnext : s.next (.enter i attempt) = .ok s') : s'.Inv := by
  simp only [next] at hnext
  cases hc : s.calls[i]? with
  | none =>
      simp only [hc] at hnext
      exact Except.ok.inj hnext ▸ h
  | some c =>
      simp only [hc] at hnext
      split at hnext
      · exact absurd hnext (by simp)
      · rename_i e woken hheld hpc
        obtain ⟨he, haddr⟩ := held_eq_some hheld
        obtain rfl := Except.ok.inj hnext
        have hset := h.setSock he (Global.enter e c.fn woken attempt).1 e.closing id
          fun _ => enter_keeps e c.fn woken attempt
        refine hset.setCalls _ fun c' hc' => ?_
        rcases List.mem_or_eq_of_mem_set hc' with hold | rfl
        · exact hset.calls c' hold
        · refine ⟨(h.calls c (List.mem_of_getElem? hc)).1, fun hwait e' he' _ => ?_⟩
          have heq : e' = { e with sock := (Global.enter e c.fn woken attempt).1 } := by
            simpa [Global.setSock] using he'.symm
          have hwaits : Waits e.kind c.fn := enter_waits hwait
          rw [heq]
          exact hwaits
      · exact Except.ok.inj hnext ▸ h
      · exact Except.ok.inj hnext ▸ h

theorem Inv.wake {s' : Global} {i : Nat} {r : WaitResult} (h : s.Inv)
    (hen : s.Enabled (.wake i r)) (hnext : s.next (.wake i r) = .ok s') : s'.Inv := by
  obtain ⟨c, hc, hpc, -⟩ := hen
  have hget : s.calls[i]? = some c := hc
  simp only [next, hget] at hnext
  obtain rfl := Except.ok.inj hnext
  refine h.setCalls _ fun c' hc' => ?_
  rcases List.mem_or_eq_of_mem_set hc' with hold | rfl
  · exact h.calls c' hold
  · obtain ⟨haddr, hwaits⟩ := h.calls c (List.mem_of_getElem? hget)
    exact ⟨haddr, fun _ => hwaits (Or.inl hpc)⟩

theorem Inv.return {s' : Global} {i : Nat} (h : s.Inv)
    (hnext : s.next (.return i) = .ok s') : s'.Inv := by
  simp only [next] at hnext
  split at hnext
  · exact Except.ok.inj hnext ▸ h
  split at hnext
  · exact absurd hnext (by simp)
  rename_i e hheld
  obtain ⟨he, -⟩ := held_eq_some hheld
  obtain rfl := Except.ok.inj hnext
  have hset := h.setSock he e.sock.rele e.closing id fun _ => by
    rw [SockUse.rele_eq]
    exact Same.keeps ⟨rfl, rfl, rfl, rfl, rfl, rfl⟩
  exact hset.setCalls _ fun c hc => hset.calls c (List.mem_of_mem_eraseIdx hc)

theorem Inv.close {s' : Global} {n : Int} (h : s.Inv) (hen : s.Enabled (.close n))
    (hnext : s.next (.close n) = .ok s') : s'.Inv := by
  obtain ⟨r, hclose, hnext⟩ := bind_eq_ok_iff.mp hnext
  unfold gridClose at hclose
  split at hclose
  · obtain rfl := Except.ok.inj hclose
    exact Except.ok.inj hnext ▸ h
  rename_i fd e' hhold
  obtain ⟨-, e, he, rfl⟩ := holdSocketLocked_ok hhold
  obtain ⟨sock, -, hclose⟩ := bind_eq_ok_iff.mp hclose
  obtain rfl := Except.ok.inj hclose
  obtain rfl := Except.ok.inj hnext
  have hset := h.setSock he sock .stopped (by simp) (by simp)
  refine hset.setGlock (.close fd) fun i => ?_
  rw [show (s.setSock fd { e with sock := sock, closing := .stopped }).glock = .free from hen.1]
  simp

theorem Inv.closeRele {s' : Global} {fd : Nat} (h : s.Inv) (hen : s.Enabled (.closeRele fd))
    (hnext : s.next (.closeRele fd) = .ok s') : s'.Inv := by
  have hlock : s.glock = .close fd := hen
  simp only [next] at hnext
  split at hnext
  · exact absurd hnext (by simp)
  rename_i e he
  obtain rfl := Except.ok.inj hnext
  have hset := h.setSock he e.sock.rele.rele .termsem (by simp) (by simp)
  refine hset.setGlock .free fun i => ?_
  rw [show (s.setSock fd { e with sock := e.sock.rele.rele, closing := .termsem }).glock =
    .close fd from hlock]
  simp

theorem Inv.waitTermsem {s' : Global} {fd : Nat} (h : s.Inv)
    (hnext : s.next (.waitTermsem fd) = .ok s') : s'.Inv := by
  simp only [next] at hnext
  split at hnext
  · exact absurd hnext (by simp)
  rename_i e he
  obtain rfl := Except.ok.inj hnext
  exact h.setSock he { e.sock with termsem := e.sock.termsem - 1 } .relesem (by simp) (by simp)

theorem Inv.waitRelesem {s' : Global} {fd : Nat} (h : s.Inv)
    (hnext : s.next (.waitRelesem fd) = .ok s') : s'.Inv := by
  simp only [next] at hnext
  split at hnext
  · exact absurd hnext (by simp)
  rename_i e he
  obtain rfl := Except.ok.inj hnext
  exact h.setSock he { e.sock with relesem := e.sock.relesem - 1 } .released (by simp) (by simp)

theorem Inv.sockTerm {s' : Global} {fd : Nat} (h : s.Inv)
    (hnext : s.next (.sockTerm fd) = .ok s') : s'.Inv := by
  simp only [next] at hnext
  split at hnext
  · exact absurd hnext (by simp)
  rename_i e he
  obtain ⟨sock, -, hnext⟩ := bind_eq_ok_iff.mp hnext
  obtain rfl := Except.ok.inj hnext
  have hold : ∀ fd' e', Function.update s.socks fd none fd' = some e' → s.socks fd' = some e' := by
    intro fd' e' he'
    by_cases heq : fd' = fd
    · subst heq
      simp at he'
    · simpa [Function.update_of_ne heq] using he'
  refine ⟨fun fd' hne => ?_, fun fd' hfd' => ?_, fun fd' e' he' => h.addrs fd' e' (hold fd' e' he'),
    fun fd' e' he' => h.usable fd' e' (hold fd' e' he'),
    fun hz fd' e' he' => h.zombies hz fd' e' (hold fd' e' he'),
    fun c hc => ⟨(h.calls c hc).1, fun hpc e' he' => (h.calls c hc).2 hpc e' (hold c.fd e' he')⟩⟩
  · obtain ⟨e', he'⟩ := Option.ne_none_iff_exists'.mp hne
    exact h.slots fd' (by simp [hold fd' e' he'])
  · have hmem : fd' ∈ List.range gridMaxSockets ∨ fd' ∈ fd :: s.unused := by
      by_cases hlast : s.unused.length + 1 = gridMaxSockets
      · exact Or.inl (by simpa only [hlast, if_true] using hfd')
      · exact Or.inr (by simpa only [hlast, if_false] using hfd')
    rcases hmem with hmem | hmem
    · simpa only [List.mem_range] using hmem
    · rcases List.mem_cons.mp hmem with rfl | hmem
      · exact h.slots fd' (by simp [he])
      · exact h.unused fd' hmem

theorem Inv.term {s' : Global} (h : s.Inv) (hnext : s.next .term = .ok s') : s'.Inv := by
  obtain rfl := Except.ok.inj (show Except.ok _ = Except.ok s' from hnext)
  refine ⟨h.slots, h.unused, h.addrs, h.usable, fun _ fd e he hopened hpast => ?_, h.calls⟩
  exact absurd (hpast 0 rfl) (by simp)

/-- One more socket is a zombie. -/
theorem Inv.termZombify {s' : Global} (h : s.Inv) (hnext : s.next .termZombify = .ok s') :
    s'.Inv := by
  simp only [next] at hnext
  split at hnext
  · rename_i i hlock
    split at hnext
    · rename_i hnone
      obtain rfl := Except.ok.inj hnext
      refine ⟨h.slots, h.unused, h.addrs, h.usable, fun hz fd e he hopened hpast => ?_, h.calls⟩
      refine h.zombies hz fd e he hopened fun j hj => ?_
      obtain rfl : i = j := by simpa using hlock.symm.trans hj
      have hlt : fd < i + 1 := hpast (i + 1) rfl
      have hne : fd ≠ i := fun heq => by
        rw [heq, hnone] at he
        exact absurd he (by simp)
      omega
    · rename_i e he
      obtain ⟨sock, hzombify, hnext⟩ := bind_eq_ok_iff.mp hnext
      obtain rfl := Except.ok.inj hnext
      have hset := h.setSock he sock e.closing id fun hopened husable =>
        ⟨(zombify_usable hzombify husable).1, fun _ => (zombify_usable hzombify husable).2⟩
      refine ⟨hset.slots, hset.unused, hset.addrs, hset.usable,
        fun hz fd e' he' hopened hpast => ?_, hset.calls⟩
      have hlt : fd < i + 1 := hpast (i + 1) rfl
      by_cases heq : fd = i
      · subst heq
        have hsame : e' = { e with sock := sock } := by
          simpa [Global.setSock] using he'.symm
        rw [hsame] at hopened ⊢
        exact (zombify_usable hzombify (h.usable fd e he hopened)).2
      · have hlock' : (s.setSock i { e with sock := sock }).glock = .term i := hlock
        refine hset.zombies hz fd e' he' hopened fun j hj => ?_
        obtain rfl : i = j := by simpa using hlock'.symm.trans hj
        omega
  · exact Except.ok.inj hnext ▸ h
  · exact Except.ok.inj hnext ▸ h

theorem Inv.termEnd {s' : Global} (h : s.Inv) (hen : s.Enabled .termEnd)
    (hnext : s.next .termEnd = .ok s') : s'.Inv := by
  have hlock : s.glock = .term gridMaxSockets := hen
  obtain rfl := Except.ok.inj (show Except.ok _ = Except.ok s' from hnext)
  refine ⟨h.slots, h.unused, h.addrs, h.usable, fun hz fd e he hopened _ => ?_, h.calls⟩
  have hsome : s.socks fd = some e := he
  have hlt : fd < gridMaxSockets := h.slots fd (by rw [hsome]; exact Option.some_ne_none e)
  refine h.zombies hz fd e he hopened fun i hi => ?_
  rw [← Glock.term.inj (hlock.symm.trans hi)]
  exact hlt

theorem Inv.env {s' : Global} {fd : Nat} {l : Sock.Label} (h : s.Inv)
    (hen : s.Enabled (.env fd l)) (hnext : s.next (.env fd l) = .ok s') : s'.Inv := by
  obtain ⟨-, -, -, hl, -⟩ := hen
  simp only [next] at hnext
  split at hnext
  · exact absurd hnext (by simp)
  rename_i e he
  obtain ⟨sock, hsock, hnext⟩ := bind_eq_ok_iff.mp hnext
  obtain rfl := Except.ok.inj hnext
  exact h.setSock he sock e.closing id fun _ => env_keeps hl hsock

/-! ## Runs -/

theorem inv_init : ({} : Global).Inv where
  slots := fun fd hne => absurd rfl hne
  unused := fun fd hfd => by simpa only [List.mem_range] using hfd
  addrs := fun fd e he => absurd he (by simp)
  usable := fun fd e he => absurd he (by simp)
  zombies := fun hz => absurd hz (by simp)
  calls := fun c hc => absurd hc (by simp)

theorem Inv.step {s' : Global} {l : Label} (h : s.Inv) (hen : s.Enabled l)
    (hnext : s.next l = .ok s') : s'.Inv := by
  cases l with
  | socket kind => exact h.socket hnext
  | call fn n => exact h.call hnext
  | enter i attempt => exact h.enter hnext
  | wake i r => exact h.wake hen hnext
  | «return» i => exact h.return hnext
  | close n => exact h.close hen hnext
  | closeRele fd => exact h.closeRele hen hnext
  | waitTermsem fd => exact h.waitTermsem hnext
  | waitRelesem fd => exact h.waitRelesem hnext
  | sockTerm fd => exact h.sockTerm hnext
  | term => exact h.term hnext
  | termZombify => exact h.termZombify hnext
  | termEnd => exact h.termEnd hen hnext
  | env fd l => exact h.env hen hnext

theorem Inv.of_reachable (hs : system.Reachable s) : s.Inv := by
  refine hs.invariant ?_ ?_
  · intro s hinit
    rw [show s = {} from hinit]
    exact inv_init
  · intro s l s' _ hinv ⟨hen, hnext⟩
    exact hinv.step hen hnext

/-! ## After `grid_term` -/

/-- An open socket is a zombie whose descriptors are signalled. -/
theorem Inv.readable (h : s.Inv) (hterm : s.Terminated) {c : Pending} {e : OpenSock}
    (hheld : s.held c = some e) (hopened : e.closing = .opened) :
    e.sock.state = .zombie ∧ (Waits e.kind c.fn → (descriptor e c.fn).Readable) := by
  obtain ⟨he, -⟩ := held_eq_some hheld
  have hzombie := h.zombies hterm.1 c.fd e he hopened fun i hi => absurd hi (hterm.2 i)
  have husable := h.usable c.fd e he hopened
  obtain ⟨hin, hout⟩ := husable.flags hzombie
  refine ⟨hzombie, fun hwaits => ?_⟩
  cases hfn : c.fn with
  | send dontwait =>
      rw [hfn] at hwaits
      obtain ⟨hopen, hflag⟩ := husable.signals.sndfd hwaits.2
      exact ⟨hopen, hflag.trans hout⟩
  | recv dontwait =>
      rw [hfn] at hwaits
      obtain ⟨hopen, hflag⟩ := husable.signals.rcvfd hwaits.2
      exact ⟨hopen, hflag.trans hin⟩
  | setsockopt | getsockopt | bind | connect | shutdown eid =>
      rw [hfn] at hwaits; exact absurd hwaits id

theorem canWake_of_readable {fd : Efd} (h : fd.Readable) (r : WaitResult) :
    CanWake fd r ↔ r = .zero := by
  cases r with
  | zero => exact ⟨fun _ => rfl, fun _ => h⟩
  | etimedout => exact ⟨fun hr => absurd (h.2.symm.trans hr.2) (by simp), fun hr => by simp at hr⟩
  | eintr => exact ⟨fun hr => absurd (h.2.symm.trans hr.2) (by simp), fun hr => by simp at hr⟩
  | ebadf => exact ⟨fun hr => absurd (h.1.symm.trans hr) (by simp), fun hr => by simp at hr⟩

/-- The runs computed from the beginning. -/
def run (labels : List Label) : Option Global := System.follow tryNext {} labels

theorem run_reachable {labels : List Label} (h : run labels = some s) : system.Reachable s :=
  (System.Reachable.start rfl).follow (fun _ _ _ => tryNext_step) h

end Global

end GridMq.Core
