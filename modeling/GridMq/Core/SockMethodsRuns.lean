import GridMq.Core.HoldsRuns
import GridMq.Core.SockMethods
import GridMq.Core.SockUseRuns

set_option autoImplicit false

/-!
# Runs of a socket with the methods of its type

Sending and receiving check the state of the socket under its lock, and so do the events of
the queue; setting and reading options do not, apart from the state `ZOMBIE`.
-/

namespace GridMq.Core

open GridMq.Aio GridMq.Library

namespace SockMethods

variable {kind : SockKind} {s s' : SockMethods} {sock sock' : Sock} {ms ms' : List Method}

/-! ## The order of the methods -/

theorem destroyedLast_of_length (h : ms.length ≤ 1) : DestroyedLast ms := by
  intro pre post heq
  have hlength := congrArg List.length heq
  rw [List.length_append, List.length_cons] at hlength
  apply List.length_eq_zero_iff.mp
  omega

theorem DestroyedLast.append (h : DestroyedLast ms) (h' : DestroyedLast ms')
    (hnone : .destroy ∈ ms → ms' = []) : DestroyedLast (ms ++ ms') := by
  intro pre post heq
  rcases List.append_eq_append_iff.mp heq with ⟨mid, hpre, hms'⟩ | ⟨mid, hms, hrest⟩
  · exact h' mid post hms'
  · cases mid with
    | nil =>
        rw [List.nil_append] at hrest
        exact h' [] post hrest.symm
    | cons m mid =>
        obtain ⟨hm, htail⟩ := List.cons_eq_cons.mp hrest
        have hmem : .destroy ∈ ms := by
          rw [hms, ← hm]
          exact List.mem_append_right pre List.mem_cons_self
        have hmid := h pre mid (by rw [hms, ← hm])
        rw [htail, hmid, hnone hmem]
        rfl

/-! ## What each step calls -/

theorem finish2Methods_length (kind : SockKind) (sdeps : List Ep) :
    (finish2Methods kind sdeps).length ≤ 1 := by
  unfold finish2Methods
  split
  · exact Nat.zero_le 1
  · split <;> exact Nat.le_refl 1

/-- When the socket type is destroyed, the socket is at its end. -/
theorem finish2_destroy (h : sock.finish2 kind = .ok sock')
    (hdestroy : .destroy ∈ finish2Methods kind sock.sdeps) : sock'.state = .fini := by
  unfold finish2Methods at hdestroy
  split at hdestroy
  · exact absurd hdestroy List.not_mem_nil
  · rename_i hsdeps
    split at hdestroy
    · exact absurd hdestroy (by simp)
    · rename_i hstop
      unfold Sock.finish2 at h
      rw [if_neg hsdeps] at h
      obtain ⟨-, -, h⟩ := bind_eq_ok_iff.mp h
      rw [Bool.not_eq_true] at hstop
      rw [hstop] at h
      obtain rfl := Except.ok.inj h
      rfl

theorem shutdownMethods_length (e : SockEvent) : (shutdownMethods kind sock e).length ≤ 1 := by
  unfold shutdownMethods
  split
  · split
    · exact finish2Methods_length _ _
    · exact Nat.zero_le 1
    · exact Nat.zero_le 1
    · exact Nat.zero_le 1
  · exact Nat.le_refl 1
  · exact Nat.zero_le 1

theorem shutdown_destroy {e : SockEvent} (h : sock.shutdown kind e = .ok sock')
    (hdestroy : .destroy ∈ shutdownMethods kind sock e) : sock'.state = .fini := by
  unfold shutdownMethods at hdestroy
  split at hdestroy
  · rename_i hstate
    split at hdestroy
    · rename_i eid
      simp only [Sock.shutdown, hstate] at h
      obtain ⟨sock₁, hfree, hfinish⟩ := bind_eq_ok_iff.mp h
      obtain ⟨-, rfl⟩ := SockUse.freeEp_effect hfree
      exact finish2_destroy hfinish hdestroy
    · exact absurd hdestroy List.not_mem_nil
    · exact absurd hdestroy List.not_mem_nil
    · exact absurd hdestroy List.not_mem_nil
  · rename_i hstate
    simp only [Sock.shutdown, hstate] at h
    obtain ⟨-, -, h⟩ := bind_eq_ok_iff.mp h
    obtain rfl := Except.ok.inj h
    rfl
  · exact absurd hdestroy List.not_mem_nil

theorem handlerMethods_length (e : SockEvent) :
    (handlerMethods sock e).length ≤ 1 ∧ .destroy ∉ handlerMethods sock e := by
  unfold handlerMethods
  split
  · split
    · split
      · exact ⟨Nat.le_refl 1, by simp⟩
      · exact ⟨Nat.le_refl 1, by simp⟩
    · exact ⟨Nat.zero_le 1, List.not_mem_nil⟩
  · exact ⟨Nat.zero_le 1, List.not_mem_nil⟩

theorem processMethods_cases (kind : SockKind) (sock : Sock) (e : SockEvent) :
    processMethods kind sock e = [] ∨
    (sock.fsm = .stopping ∧ (∀ eid, e ≠ .epAction eid) ∧
      processMethods kind sock e = shutdownMethods kind sock e) ∨
    (sock.fsm ≠ .stopping ∧ processMethods kind sock e = handlerMethods sock e) := by
  cases e with
  | epAction eid => exact Or.inl rfl
  | epStopped eid | pipe eid pipe out | stopped =>
      simp only [processMethods]
      split
      · rename_i hfsm
        exact Or.inr (Or.inl ⟨hfsm, by simp, rfl⟩)
      · rename_i hfsm
        exact Or.inr (Or.inr ⟨hfsm, rfl⟩)

theorem process_destroy {e : SockEvent} (h : sock.process kind e = .ok sock')
    (hdestroy : .destroy ∈ processMethods kind sock e) : sock'.state = .fini := by
  rcases processMethods_cases kind sock e with
    hnone | ⟨hfsm, he, hmethods⟩ | ⟨-, hmethods⟩
  · rw [hnone] at hdestroy
    exact absurd hdestroy List.not_mem_nil
  · rw [hmethods] at hdestroy
    have hshutdown : sock.shutdown kind e = .ok sock' := by
      cases e with
      | epAction eid => exact absurd rfl (he eid)
      | epStopped eid => simpa only [Sock.process, hfsm, if_true] using h
      | pipe eid pipe out => simpa only [Sock.process, hfsm, if_true] using h
      | stopped => simpa only [Sock.process, hfsm, if_true] using h
    exact shutdown_destroy hshutdown hdestroy
  · rw [hmethods] at hdestroy
    exact absurd hdestroy (handlerMethods_length e).2

theorem processMethods_length (e : SockEvent) : (processMethods kind sock e).length ≤ 1 := by
  rcases processMethods_cases kind sock e with hnone | ⟨-, -, hmethods⟩ | ⟨-, hmethods⟩
  · rw [hnone]
    exact Nat.zero_le 1
  · rw [hmethods]
    exact shutdownMethods_length e
  · rw [hmethods]
    exact (handlerMethods_length e).1

theorem sockMethods_length (l : Sock.Label) : (sockMethods kind sock l).length ≤ 1 := by
  unfold sockMethods
  split
  · split
    · exact finish2Methods_length _ _
    · exact Nat.zero_le 1
  · split
    · exact Nat.zero_le 1
    · exact processMethods_length _
  · split
    · exact Nat.zero_le 1
    · exact Nat.le_refl 1
  · exact Nat.zero_le 1

theorem sockMethods_destroy {l : Sock.Label} (h : sock.next kind l = .ok sock')
    (hdestroy : .destroy ∈ sockMethods kind sock l) : sock'.state = .fini := by
  unfold sockMethods at hdestroy
  split at hdestroy
  · split at hdestroy
    · rename_i hfsm
      simp only [Sock.next, Sock.stop, hfsm, if_true] at h
      obtain ⟨-, -, h⟩ := bind_eq_ok_iff.mp h
      exact finish2_destroy h hdestroy
    · exact absurd hdestroy List.not_mem_nil
  · split at hdestroy
    · exact absurd hdestroy List.not_mem_nil
    · rename_i e events hq
      simp only [Sock.next, hq] at h
      exact process_destroy h (by cases e <;> exact hdestroy)
  · split at hdestroy
    · exact absurd hdestroy List.not_mem_nil
    · exact absurd hdestroy (by simp)
  · exact absurd hdestroy List.not_mem_nil

/-- At its end the socket calls no method on its own. -/
theorem sockMethods_fini (hfsm : sock.fsm = .stopping) (hstate : sock.state = .fini)
    (l : Sock.Label) : sockMethods kind sock l = [] := by
  unfold sockMethods
  split
  · rw [if_neg (by simp [hfsm])]
  · split
    · rfl
    · rename_i e events hq
      rcases processMethods_cases kind sock e with hnone | ⟨-, -, hmethods⟩ | ⟨hne, -⟩
      · exact hnone
      · rw [hmethods]
        simp only [shutdownMethods, hstate]
      · exact absurd hfsm hne
  · rw [if_pos (by simp [hstate])]
  · rfl

/-- A call in the context: what it leaves of the socket. -/
theorem enter_same (e : OpenSock) (fn : SockFn) (woken : Bool) (attempt : Attempt) :
    (Global.enter e fn.fn woken attempt).1.fsm = e.sock.fsm ∧
      (Global.enter e fn.fn woken attempt).1.state = e.sock.state ∧
      (Global.enter e fn.fn woken attempt).1.eps = e.sock.eps ∧
      (Global.enter e fn.fn woken attempt).1.sdeps = e.sock.sdeps := by
  have hrecheck : ∀ (s : Sock) (out : Bool), (Global.recheck s out woken).fsm = s.fsm ∧
      (Global.recheck s out woken).state = s.state ∧
      (Global.recheck s out woken).eps = s.eps ∧
      (Global.recheck s out woken).sdeps = s.sdeps := by
    intro s out
    unfold Global.recheck
    split
    · split
      · exact ⟨rfl, rfl, rfl, rfl⟩
      · exact ⟨rfl, rfl, rfl, rfl⟩
    · exact ⟨rfl, rfl, rfl, rfl⟩
  cases fn with
  | setsockopt level => exact ⟨rfl, rfl, rfl, rfl⟩
  | getsockopt level => exact ⟨rfl, rfl, rfl, rfl⟩
  | send dontwait =>
      simp only [SockFn.fn, Global.enter]
      split
      · exact ⟨rfl, rfl, rfl, rfl⟩
      · exact hrecheck _ true
  | recv dontwait =>
      simp only [SockFn.fn, Global.enter]
      split
      · exact ⟨rfl, rfl, rfl, rfl⟩
      · exact hrecheck _ false

theorem callMethods_length (kind : SockKind) (sock : Sock) (fn : SockFn) :
    (callMethods kind sock fn).length ≤ 1 ∧ .destroy ∉ callMethods kind sock fn := by
  have htransfer : ∀ m : Method, m ≠ .destroy →
      (transferMethods sock m).length ≤ 1 ∧ .destroy ∉ transferMethods sock m := by
    intro m hm
    unfold transferMethods
    split
    · exact ⟨Nat.le_refl 1, by simp [Ne.symm hm]⟩
    · exact ⟨Nat.le_refl 1, by simp [Ne.symm hm]⟩
    · exact ⟨Nat.zero_le 1, List.not_mem_nil⟩
  have hoption : ∀ (level : Int) (m : Method), m ≠ .destroy →
      (optionMethods sock level m).length ≤ 1 ∧ .destroy ∉ optionMethods sock level m := by
    intro level m hm
    unfold optionMethods
    split
    · exact ⟨Nat.zero_le 1, List.not_mem_nil⟩
    · split
      · exact ⟨Nat.le_refl 1, by simp [Ne.symm hm]⟩
      · exact ⟨Nat.zero_le 1, List.not_mem_nil⟩
  cases fn with
  | send dontwait =>
      simp only [callMethods]
      split
      · exact ⟨Nat.zero_le 1, List.not_mem_nil⟩
      · exact htransfer .send (by simp)
  | recv dontwait =>
      simp only [callMethods]
      split
      · exact ⟨Nat.zero_le 1, List.not_mem_nil⟩
      · exact htransfer .recv (by simp)
  | setsockopt level => exact hoption level .setopt (by simp)
  | getsockopt level => exact hoption level .getopt (by simp)

/-- Sending and receiving are refused at the end of a socket, and so are options that are
not those of the protocol. -/
theorem callMethods_fini {fn : SockFn} (hstate : sock.state = .fini)
    (hfn : fn.ofProtocol = false) : callMethods kind sock fn = [] := by
  cases fn with
  | send dontwait =>
      simp only [callMethods, transferMethods, hstate]
      split <;> rfl
  | recv dontwait =>
      simp only [callMethods, transferMethods, hstate]
      split <;> rfl
  | setsockopt level | getsockopt level =>
      have hlevel : ¬level > gridSolSocket := of_decide_eq_false hfn
      simp only [callMethods, optionMethods, if_neg hlevel]
      split <;> rfl

/-! ## The invariant -/

/-- Before `grid_close`. -/
def Opened (s : Sock) : Prop :=
  s.fsm ≠ .stopping ∧ (s.state = .init ∨ s.state = .active ∨ s.state = .zombie)

/-- No endpoint is left once the socket type is asked to stop. -/
def Emptied (s : Sock) : Prop :=
  s.state = .stopping ∨ s.state = .fini → s.eps = [] ∧ s.sdeps = []

structure Inv (s : SockMethods) : Prop where
  last : DestroyedLast s.invoked
  fini : .destroy ∈ s.invoked → s.sock.state = .fini
  opened : s.closed = false → Opened s.sock
  closed : s.closed = true → Holds.Closed s.sock
  emptied : Emptied s.sock

theorem Opened.emptied (h : Opened sock) : Emptied sock := by
  intro hstate
  rcases h.2 with hold | hold | hold
  · simp [hold] at hstate
  · simp [hold] at hstate
  · simp [hold] at hstate

theorem Inv.opened_of_ne (h : s.Inv) (hstate : s.sock.state = .fini) : s.closed = true := by
  by_contra hne
  have hopened := (h.opened (by simpa using hne)).2
  simp [hstate] at hopened

/-- A step calls at most one method, and none when the socket is at its end. -/
theorem Inv.extend (h : s.Inv) (hinvoked : s'.invoked = s.invoked ++ ms) (hlength : ms.length ≤ 1)
    (hdestroy : .destroy ∈ ms → s'.sock.state = .fini)
    (hfini : s.sock.state = .fini → ms = [] ∧ s'.sock.state = .fini)
    (hopened : s'.closed = false → Opened s'.sock)
    (hclosed : s'.closed = true → Holds.Closed s'.sock) (hemptied : Emptied s'.sock) : s'.Inv := by
  refine ⟨?_, ?_, hopened, hclosed, hemptied⟩
  · rw [hinvoked]
    exact h.last.append (destroyedLast_of_length hlength) fun hmem => (hfini (h.fini hmem)).1
  · rw [hinvoked]
    intro hmem
    rcases List.mem_append.mp hmem with hmem | hmem
    · exact (hfini (h.fini hmem)).2
    · exact hdestroy hmem

/-- Steps that leave the machine and the endpoints of the socket alone. -/
theorem Inv.same (h : s.Inv) (hinvoked : s'.invoked = s.invoked ++ ms) (hlength : ms.length ≤ 1)
    (hdestroy : .destroy ∉ ms) (hfini : s.sock.state = .fini → ms = [])
    (hclosed : s'.closed = s.closed) (hfsm : s'.sock.fsm = s.sock.fsm)
    (hstate : s'.sock.state = s.sock.state) (heps : s'.sock.eps = s.sock.eps)
    (hsdeps : s'.sock.sdeps = s.sock.sdeps) : s'.Inv := by
  refine h.extend hinvoked hlength (fun hmem => absurd hmem hdestroy) ?_ ?_ ?_ ?_
  · exact fun hs => ⟨hfini hs, hstate.trans hs⟩
  · rw [hclosed, Opened, hfsm, hstate]
    exact h.opened
  · rw [hclosed, Holds.Closed, hfsm, hstate]
    exact h.closed
  · rw [Emptied, hstate, heps, hsdeps]
    exact h.emptied

/-! ## Steps -/

/-- A socket that moves on its own stays open, or goes on to its end. -/
theorem env_phase {l : Sock.Label} (hl : SockUse.isEnv l = true)
    (h : sock.next kind l = .ok sock') :
    (Opened sock → Opened sock') ∧ (Emptied sock → Emptied sock') ∧
      (Holds.Closed sock → Holds.Closed sock' ∧ (sock.state = .fini → sock'.state = .fini)) := by
  have heffect := SockUse.env_effect hl h
  refine ⟨?_, ?_, ?_⟩
  · rintro ⟨hfsm, hstate⟩
    refine ⟨?_, ?_⟩
    · rcases heffect.fsm with hsame | ⟨-, hactive⟩
      · rw [hsame]
        exact hfsm
      · simp [hactive]
    · cases heffect.came with
      | none hsame => rw [hsame]; exact hstate
      | started hactive => exact Or.inr (Or.inl hactive)
      | emptied hold => simp [hold] at hstate
      | gone hold => simp [hold] at hstate
      | ended hold => simp [hold] at hstate
  · intro hemptied hstate
    cases heffect.came with
    | none hsame => exact heffect.moved.nil (hemptied (hsame ▸ hstate))
    | started hactive => simp [hactive] at hstate
    | emptied _ _ _ heps hsdeps => exact ⟨heps, hsdeps⟩
    | gone _ _ heps hsdeps => exact ⟨heps, hsdeps⟩
    | ended hold _ heps hsdeps =>
        obtain ⟨heps', hsdeps'⟩ := hemptied (Or.inl hold)
        exact ⟨heps.trans heps', hsdeps.trans hsdeps'⟩
  · intro hclosed
    refine ⟨(Holds.env_quiet hl h).closed hclosed, ?_⟩
    intro hfini
    cases heffect.came with
    | none hsame => rw [hsame]; exact hfini
    | started _ _ hidle => exact absurd (hclosed.1.symm.trans hidle) (by simp)
    | emptied hold => exact absurd (hfini.symm.trans hold) (by simp)
    | gone hold => exact absurd (hfini.symm.trans hold) (by simp)
    | ended hold => exact absurd (hfini.symm.trans hold) (by simp)

/-- `grid_term` comes to the socket. -/
theorem zombify_phase (h : sock.next kind .zombify = .ok sock') :
    (Opened sock → Opened sock') ∧ sock'.eps = sock.eps ∧ sock'.sdeps = sock.sdeps ∧
      (sock.fsm = .stopping → sock'.state = sock.state ∧ sock.state = .stoppingEps) := by
  simp only [Sock.next, Sock.zombify] at h
  split at h
  · rename_i hfsm
    split at h
    · rename_i hstate
      obtain rfl := Except.ok.inj h
      exact ⟨id, rfl, rfl, fun _ => ⟨rfl, hstate⟩⟩
    all_goals exact absurd h (by simp)
  · rename_i hfsm
    have hne : sock.fsm ≠ .stopping := hfsm
    split at h
    · obtain rfl := Except.ok.inj h
      exact ⟨fun _ => ⟨hne, Or.inr (Or.inr rfl)⟩, rfl, rfl, fun hs => absurd hs hne⟩
    · obtain rfl := Except.ok.inj h
      exact ⟨fun _ => ⟨hne, Or.inr (Or.inr rfl)⟩, rfl, rfl, fun hs => absurd hs hne⟩
    all_goals exact absurd h (by simp)

/-- An endpoint of an open socket is added or removed. -/
theorem Inv.endpoints {l : Sock.Label} (h : s.Inv) (hopen : s.closed = false)
    (hmethods : sockMethods kind s.sock l = []) (hfsm : sock'.fsm = s.sock.fsm)
    (hstate : sock'.state = s.sock.state) :
    Inv { s with sock := sock', invoked := s.invoked ++ sockMethods kind s.sock l } := by
  have hopened : Opened sock' := by
    rw [Opened, hfsm, hstate]
    exact h.opened hopen
  refine h.extend rfl (sockMethods_length l) ?_ ?_ ?_ ?_ hopened.emptied
  · rw [hmethods]
    exact fun hmem => absurd hmem List.not_mem_nil
  · exact fun hfini => ⟨hmethods, hstate.trans hfini⟩
  · exact fun _ => hopened
  · exact fun hc => absurd (hopen.symm.trans hc) (by simp)

theorem Inv.env {l : Sock.Label} (h : s.Inv) (hen : isEnv s.closed l = true)
    (hnext : s.sock.next kind l = .ok sock') :
    Inv { s with sock := sock', invoked := s.invoked ++ sockMethods kind s.sock l } := by
  have hmethods : s.sock.state = .fini → sockMethods kind s.sock l = [] := by
    intro hfini
    exact sockMethods_fini (h.closed (h.opened_of_ne hfini)).1 hfini l
  by_cases hl : SockUse.isEnv l = true
  · obtain ⟨hopened, hemptied, hclosed⟩ := env_phase hl hnext
    refine h.extend rfl (sockMethods_length l) (sockMethods_destroy hnext) ?_ ?_ ?_ ?_
    · exact fun hfini => ⟨hmethods hfini, (hclosed (h.closed (h.opened_of_ne hfini))).2 hfini⟩
    · exact fun hc => hopened (h.opened hc)
    · exact fun hc => (hclosed (h.closed hc)).1
    · exact hemptied h.emptied
  · cases l with
    | zombify =>
        obtain ⟨hopened, heps, hsdeps, hstopping⟩ := zombify_phase hnext
        refine h.extend rfl (Nat.zero_le 1) ?_ ?_ ?_ ?_ ?_
        · exact fun hmem => absurd hmem List.not_mem_nil
        · intro hfini
          have hstate := (hstopping (h.closed (h.opened_of_ne hfini)).1).2
          exact absurd (hfini.symm.trans hstate) (by simp)
        · exact fun hc => hopened (h.opened hc)
        · exact fun hc => (Holds.zombify_quiet hnext).closed (h.closed hc)
        · cases hc : s.closed with
          | false => exact (hopened (h.opened hc)).emptied
          | true =>
              rw [Emptied, (hstopping (h.closed hc).1).1, heps, hsdeps]
              exact h.emptied
    | stop => exact absurd hen (by simp [isEnv])
    | addEp =>
        obtain rfl := Except.ok.inj hnext
        exact h.endpoints (by simpa [isEnv] using hen) rfl rfl rfl
    | rmEp eid =>
        obtain rfl := Except.ok.inj hnext
        have hopen : s.closed = false := by simpa [isEnv] using hen
        simp only [Sock.rmEp]
        cases s.sock.eps.find? (·.eid = eid) with
        | none => exact h.endpoints (l := .rmEp eid) hopen rfl rfl rfl
        | some ep => exact h.endpoints (l := .rmEp eid) hopen rfl rfl rfl
    | start => exact absurd rfl hl
    | epReports eid => exact absurd rfl hl
    | pipeEvent eid pipe out => exact absurd rfl hl
    | sockbaseReports => exact absurd rfl hl
    | deliver => exact absurd rfl hl
    | leave canRecv canSend => exact absurd rfl hl

theorem Inv.close (h : s.Inv) (hopen : s.closed = false) (hidle : s.sock.fsm ≠ .idle)
    (hnext : s.next kind .close = .ok s') : s'.Inv := by
  obtain ⟨hfsm, hstate⟩ := h.opened hopen
  have hactive : s.sock.fsm = .active := by
    cases hcase : s.sock.fsm with
    | idle => exact absurd hcase hidle
    | active => rfl
    | stopping => exact absurd hcase hfsm
  have hgranted : ∀ sock : Sock, sock.fsm = .active → ∀ sock', sock.next kind .stop = .ok sock' →
      s' = { s with
        sock := sock'.rele.rele, closed := true
        invoked := s.invoked ++ sockMethods kind sock .stop } → s'.Inv := by
    intro sock hsock sock' hstop heq
    subst heq
    have hrele : ∀ x : Sock, x.rele.fsm = x.fsm ∧ x.rele.state = x.state ∧ x.rele.eps = x.eps ∧
        x.rele.sdeps = x.sdeps := by
      intro x
      rw [SockUse.rele_eq]
      exact ⟨rfl, rfl, rfl, rfl⟩
    obtain ⟨hfsm₁, hstate₁, heps₁, hsdeps₁⟩ := hrele sock'
    obtain ⟨hfsm₂, hstate₂, heps₂, hsdeps₂⟩ := hrele sock'.rele
    obtain ⟨heps, -, -, -, -, -, -, -, hsdeps, -⟩ := SockUse.stop_effect hstop hsock
    refine h.extend rfl (sockMethods_length _) ?_ ?_ ?_ ?_ ?_
    · intro hmem
      rw [hstate₂, hstate₁]
      exact sockMethods_destroy hstop hmem
    · intro hfini
      rcases hstate with hold | hold | hold
      · exact absurd (hfini.symm.trans hold) (by simp)
      · exact absurd (hfini.symm.trans hold) (by simp)
      · exact absurd (hfini.symm.trans hold) (by simp)
    · exact fun hc => absurd hc (by simp)
    · intro _
      rw [Holds.Closed, hfsm₂, hfsm₁, hstate₂, hstate₁]
      exact (Holds.stop_closed hstop hsock).1
    · rw [Emptied, hstate₂, hstate₁, heps₂, heps₁, hsdeps₂, hsdeps₁]
      exact fun hs => ⟨heps, hsdeps hs⟩
  simp only [SockMethods.next] at hnext
  split at hnext
  · rename_i sock hhold
    have hsock : sock.fsm = .active := by
      unfold Sock.hold at hhold
      split at hhold
      · obtain ⟨rfl, -⟩ := Prod.mk.inj hhold
        exact hactive
      · obtain ⟨rfl, -⟩ := Prod.mk.inj hhold
        exact hactive
      all_goals exact absurd hhold (by simp)
    obtain ⟨sock', hstop, hnext⟩ := bind_eq_ok_iff.mp hnext
    exact hgranted sock hsock sock' hstop (Except.ok.inj hnext).symm
  · exact Except.ok.inj hnext ▸ h
  · exact Except.ok.inj hnext ▸ h

theorem Inv.hold {fn : SockFn} (h : s.Inv) (hnext : s.next kind (.hold fn) = .ok s') :
    s'.Inv := by
  simp only [SockMethods.next] at hnext
  split at hnext
  · rename_i sock hhold
    obtain rfl := Except.ok.inj hnext
    have hsame : sock.fsm = s.sock.fsm ∧ sock.state = s.sock.state ∧ sock.eps = s.sock.eps ∧
        sock.sdeps = s.sock.sdeps := by
      unfold Sock.hold at hhold
      split at hhold
      · obtain ⟨rfl, -⟩ := Prod.mk.inj hhold
        exact ⟨rfl, rfl, rfl, rfl⟩
      · obtain ⟨rfl, -⟩ := Prod.mk.inj hhold
        exact ⟨rfl, rfl, rfl, rfl⟩
      all_goals exact absurd hhold (by simp)
    obtain ⟨hfsm, hstate, heps, hsdeps⟩ := hsame
    exact h.same (List.append_nil _).symm (Nat.zero_le 1) List.not_mem_nil (fun _ => rfl) rfl hfsm
      hstate heps hsdeps
  · exact Except.ok.inj hnext ▸ h
  · exact Except.ok.inj hnext ▸ h

/-- A call enters the context; an option of the protocol finds the socket type alive. -/
theorem Inv.enter {i : Nat} {attempt : Attempt} (h : s.Inv) (hgood : s.Alive (.enter i attempt))
    (hnext : s.next kind (.enter i attempt) = .ok s') : s'.Inv := by
  simp only [SockMethods.next] at hnext
  split at hnext
  · exact Except.ok.inj hnext ▸ h
  · rename_i c hc
    split at hnext
    · rename_i woken hpc
      obtain rfl := Except.ok.inj hnext
      obtain ⟨hfsm, hstate, heps, hsdeps⟩ := enter_same (s.openSock kind) c.fn woken attempt
      obtain ⟨hlength, hdestroy⟩ := callMethods_length kind s.sock c.fn
      refine h.same rfl hlength hdestroy ?_ rfl hfsm hstate heps hsdeps
      intro hfini
      cases hfn : c.fn.ofProtocol with
      | false => exact callMethods_fini hfini hfn
      | true => exact absurd hfini (hgood c hc hfn)
    · exact Except.ok.inj hnext ▸ h
    · exact Except.ok.inj hnext ▸ h

/-- The pipes of a socket belong to its endpoints. -/
theorem Inv.pipe {eid : Nat} {add : Bool} (h : s.Inv) (hen : s.Enabled kind (.pipe eid add))
    (hnext : s.next kind (.pipe eid add) = .ok s') : s'.Inv := by
  obtain ⟨ep, hep, -⟩ := hen
  obtain rfl := Except.ok.inj (show Except.ok _ = Except.ok s' from hnext)
  refine h.same rfl (Nat.le_refl 1) ?_ ?_ rfl rfl rfl rfl rfl
  · cases add with
    | false => simp
    | true => simp
  · intro hfini
    obtain ⟨heps, hsdeps⟩ := h.emptied (Or.inr hfini)
    rw [heps, hsdeps] at hep
    exact absurd hep List.not_mem_nil

theorem Inv.step {l : Label} (h : s.Inv) (hgood : s.Alive l) (hen : s.Enabled kind l)
    (hnext : s.next kind l = .ok s') : s'.Inv := by
  cases l with
  | hold fn => exact h.hold hnext
  | enter i attempt => exact h.enter hgood hnext
  | wake i r =>
      simp only [SockMethods.next] at hnext
      split at hnext
      · exact Except.ok.inj hnext ▸ h
      · obtain rfl := Except.ok.inj hnext
        exact h.same (List.append_nil _).symm (Nat.zero_le 1) List.not_mem_nil (fun _ => rfl) rfl
          rfl rfl rfl rfl
  | «return» i =>
      obtain rfl := Except.ok.inj (show Except.ok _ = Except.ok s' from hnext)
      refine h.same (List.append_nil _).symm (Nat.zero_le 1) List.not_mem_nil (fun _ => rfl) rfl
        ?_ ?_ ?_ ?_
      all_goals rw [SockUse.rele_eq]
  | close => exact h.close hen.1 hen.2.1 hnext
  | pipe eid add => exact h.pipe hen hnext
  | env l =>
      obtain ⟨sock', hsock, hnext⟩ := bind_eq_ok_iff.mp hnext
      obtain rfl := Except.ok.inj hnext
      exact h.env hen.1 hsock

theorem Inv.init : Inv {} := by
  refine ⟨?_, ?_, ?_, ?_, ?_⟩
  · exact destroyedLast_of_length (Nat.zero_le 1)
  · exact fun hmem => absurd hmem List.not_mem_nil
  · exact fun _ => ⟨by simp, Or.inl rfl⟩
  · exact fun hc => absurd hc (by simp)
  · exact fun _ => ⟨rfl, rfl⟩

/-- No method of the socket type is called after it was destroyed, in every run in which no
option of the protocol is set or read at the end of the socket. -/
theorem destroyed_last (hs : ((system kind).restrict Alive).Reachable s) :
    DestroyedLast s.invoked := by
  apply Inv.last
  apply hs.invariant (P := Inv)
  · intro s hs
    rw [show s = {} from hs]
    exact Inv.init
  · intro s l s' _ hinv hstep
    exact hinv.step hstep.1 hstep.2.1 hstep.2.2

/-! ## A late option -/

/-- Two calls hold the socket when it is closed. -/
def heldLabels (fn : SockFn) : List Label :=
  [.env .start, .env (.leave false false), .hold (.send true), .hold fn, .close,
    .env (.leave false false), .enter 0 .zero]

theorem destroyed_last_send : ∃ s, ((system Sock.plainKind).restrict Alive).Reachable s ∧
    s.invoked = [.events, .destroy] ∧ DestroyedLast s.invoked := by
  have hrun : (System.follow (fun s l => if Alive s l then
      System.tryStep (s.Enabled Sock.plainKind l) (s.next Sock.plainKind l) else none) {}
      (heldLabels (.setsockopt 2))).any
        (fun s => decide (s.invoked = [.events, .destroy])) = true := by
    decide +kernel
  obtain ⟨s, hfollow, hend⟩ := (Option.any_eq_true _ _).mp hrun
  have hs : ((system Sock.plainKind).restrict Alive).Reachable s := by
    apply System.Reachable.follow _ (.start rfl) hfollow
    intro s l s' h
    split at h
    · rename_i hgood
      exact ⟨hgood, System.tryStep_eq_some h⟩
    · exact absurd h (by simp)
  exact ⟨s, hs, of_decide_eq_true hend, destroyed_last hs⟩

/-- The second call sets an option of the protocol. -/
theorem not_destroyed_last : ¬∀ (kind : SockKind) (s : SockMethods), (system kind).Reachable s →
    DestroyedLast s.invoked := by
  intro hall
  have hrun : (System.follow (fun (s : SockMethods) l =>
      System.tryStep (s.Enabled Sock.plainKind l) (s.next Sock.plainKind l)) {}
      (heldLabels (.setsockopt 2) ++ [.env (.leave false false), .enter 1 .zero])).any
        (fun s => decide (s.invoked = [.events, .destroy, .setopt])) = true := by
    decide +kernel
  obtain ⟨s, hfollow, hend⟩ := (Option.any_eq_true _ _).mp hrun
  have hs : (system Sock.plainKind).Reachable s :=
    System.Reachable.follow (fun _ _ _ => System.tryStep_eq_some) (.start rfl) hfollow
  have hpost := hall _ s hs [.events] [.setopt] (of_decide_eq_true hend)
  exact absurd hpost (by simp)

end SockMethods

end GridMq.Core
