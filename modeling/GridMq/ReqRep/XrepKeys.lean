import GridMq.ReqRep.RepRuns

set_option autoImplicit false

/-!
# The keys of an XREP or XRESPONDENT socket

A new pipe is given the low 31 bits of a counter for its key, and the insertion into the
hash asserts that no attached pipe has it.  The counter comes back to the key of a pipe that
stays attached while `2 ^ 31` others are added after it.

A pipe is named by the number of pipes that were added before it.
-/

namespace GridMq.ReqRep

open GridMq.Core GridMq.Protocols GridMq.Library

/-- An XREP socket; `adds` counts the pipes that were added. -/
structure RawRep where
  xrep : Xrep
  adds : Nat := 0

namespace RawRep

open Xrep (keyOf AttachesNone)

/-- `grid_xrep_init`, from a random key. -/
def init (key : Nat) : RawRep := { xrep := .init key }

/-- What can happen to an XREP socket. -/
inductive Label where
  | add (sndprio rcvprio : Priority)
  | rm (p : Nat)
  | pipeIn (p : Nat)
  | pipeOut (p : Nat)
  | received (p : Nat) (wire : List UInt8)
  | sent (p : Nat)
  | send (msg : Msg)
  | recv

/-- The OUT event of a pipe is delivered while the pipe can be sent to. -/
def Enabled (self : RawRep) : Label → Prop
  | .pipeOut p => ∃ data, self.xrep.pipes p = some data ∧ data.pipe.outstate = .idle
  | _ => True

/-- One step. -/
def next (self : RawRep) : Label → Except Abort RawRep
  | .add sndprio rcvprio => do
      let xrep ← self.xrep.add self.adds sndprio.1 rcvprio.1
      return { xrep := xrep, adds := self.adds + 1 }
  | .rm p => do
      let xrep ← self.xrep.rm p
      return { self with xrep := xrep }
  | .pipeIn p => do
      let xrep ← self.xrep.xrepIn p
      return { self with xrep := xrep }
  | .pipeOut p => do
      let xrep ← self.xrep.xrepOut p
      return { self with xrep := xrep }
  | .received p wire => do
      let r ← self.xrep.receivedMsg p wire
      return { self with xrep := r.1 }
  | .sent p => do
      let r ← self.xrep.sentMsg p
      return { self with xrep := r.1 }
  | .send msg => do
      let xrep ← self.xrep.send msg
      return { self with xrep := xrep }
  | .recv => do
      let r ← self.xrep.recv
      return { self with xrep := r.1 }

/-- The XREP socket as a transition system, and the XRESPONDENT socket, which is the same
code. -/
def system : System RawRep Label where
  init s := ∃ key, s = RawRep.init key
  step s l s' := Enabled s l ∧ s.next l = .ok s'

/-- The key that the next pipe is given. -/
def newKey (self : RawRep) : Nat := self.xrep.nextKey &&& 0x7fffffff

/-- The key of the next pipe is that of no attached pipe, and the pipe can be added. -/
def CanAdd (self : RawRep) : Prop :=
  (∀ p data, self.xrep.pipes p = some data → data.key ≠ self.newKey) ∧
    ∀ sndprio rcvprio, ∃ s', self.next (.add sndprio rcvprio) = .ok s'

/-- No attached pipe was added a multiple of `2 ^ 31` additions before the next one. -/
def Unwrapped (self : RawRep) : Prop :=
  ∀ p, self.xrep.pipes p ≠ none → ¬2 ^ 31 ∣ self.adds - p

variable {s s' : RawRep} {first : Nat}

/-- A message that is sent leaves every pipe its key. -/
theorem keyed_send {x x' : Xrep} {adds : Nat} {msg : Msg} (h : x.Keyed first adds)
    (hsend : x.send msg = .ok x') : x'.Keyed first adds := by
  unfold Xrep.send at hsend
  split at hsend
  · obtain rfl := Except.ok.inj hsend
    exact h
  · simp only at hsend
    split at hsend
    · obtain rfl := Except.ok.inj hsend
      exact h
    · obtain ⟨data, hdata, hsend⟩ := bind_eq_ok_iff.mp hsend
      have hp := Xrep.getData_eq_ok hdata
      split at hsend
      · obtain rfl := Except.ok.inj hsend
        exact h
      · rename_i hout
        have hidle := (h.attached _ data hp).2.2.2 (by simpa using hout)
        rw [Pipe.send_ready hidle] at hsend
        obtain rfl := Except.ok.inj hsend
        exact h.update hp rfl (by simp)

/-- Every step keeps the keys. -/
theorem keyed_step {l : Label} (h : s.xrep.Keyed first s.adds) (hstep : system.step s l s') :
    s'.xrep.Keyed first s'.adds := by
  obtain ⟨hl, hnext⟩ := hstep
  cases l with
  | add sndprio rcvprio =>
      obtain ⟨x', hcall, hret⟩ := bind_eq_ok_iff.mp hnext
      obtain rfl := Except.ok.inj hret
      exact (h.add hcall).1
  | rm p =>
      obtain ⟨x', hcall, hret⟩ := bind_eq_ok_iff.mp hnext
      obtain rfl := Except.ok.inj hret
      exact (h.rm hcall).1
  | pipeIn p =>
      obtain ⟨x', hcall, hret⟩ := bind_eq_ok_iff.mp hnext
      obtain rfl := Except.ok.inj hret
      exact (h.xrepIn hcall).1
  | pipeOut p =>
      obtain ⟨x', hcall, hret⟩ := bind_eq_ok_iff.mp hnext
      obtain rfl := Except.ok.inj hret
      exact (h.xrepOut hcall hl).1
  | received p wire =>
      obtain ⟨r, hcall, hret⟩ := bind_eq_ok_iff.mp hnext
      obtain rfl := Except.ok.inj hret
      exact (h.receivedMsg hcall).1
  | sent p =>
      obtain ⟨r, hcall, hret⟩ := bind_eq_ok_iff.mp hnext
      obtain rfl := Except.ok.inj hret
      exact (h.sentMsg hcall).1
  | send msg =>
      obtain ⟨x', hcall, hret⟩ := bind_eq_ok_iff.mp hnext
      obtain rfl := Except.ok.inj hret
      exact keyed_send h hcall
  | recv =>
      obtain ⟨r, hcall, hret⟩ := bind_eq_ok_iff.mp hnext
      obtain rfl := Except.ok.inj hret
      exact (h.recv hcall).1

theorem keyed_reachable (h : system.Reachable s) : ∃ first, s.xrep.Keyed first s.adds := by
  refine h.invariant (P := fun s => ∃ first, s.xrep.Keyed first s.adds) ?_ ?_
  · rintro s ⟨key, rfl⟩
    exact ⟨key % 2 ^ 32, Xrep.keyed_init key⟩
  · rintro s l s' - ⟨first, hkeyed⟩ hstep
    exact ⟨first, keyed_step hkeyed hstep⟩

/-! ## The next key -/

/-- Two pipes have one key when the number of additions between them is a multiple of
`2 ^ 31`. -/
theorem keyOf_eq_iff {p q : Nat} (h : p ≤ q) :
    keyOf first p = keyOf first q ↔ 2 ^ 31 ∣ q - p := by
  unfold keyOf
  omega

/-- The next pipe can be added. -/
theorem next_add_ok (h : s.xrep.Keyed first s.adds)
    (hfree : ∀ p, s.xrep.pipes p ≠ none → keyOf first p ≠ keyOf first s.adds)
    (sndprio rcvprio : Priority) :
    ∃ x', s.next (.add sndprio rcvprio) = .ok { xrep := x', adds := s.adds + 1 } ∧
      (∀ q, q ≠ s.adds → x'.pipes q = s.xrep.pipes q) ∧ x'.pipes s.adds ≠ none := by
  obtain ⟨x', hadd, -, hpipes⟩ := h.add_ok hfree sndprio.1 rcvprio.2
  refine ⟨x', by simp only [next, hadd, ok_bind, pure_eq_ok], ?_, ?_⟩
  · intro q hq
    rw [hpipes, Xrep.setData_pipes, if_neg hq]
  · rw [hpipes, Xrep.setData_pipes, if_pos rfl]
    simp

/-- In every state of every run, from any random key: attached pipes have different keys,
and the key of the next pipe is new, so that the pipe can be added, if and only if no
attached pipe was added a multiple of `2 ^ 31` additions before. -/
theorem keys_unique (h : system.Reachable s) :
    (∀ p q data data', s.xrep.pipes p = some data → s.xrep.pipes q = some data' →
      data.key = data'.key → p = q) ∧
    (CanAdd s ↔ Unwrapped s) := by
  obtain ⟨first, hkeyed⟩ := keyed_reachable h
  have hkeys : ∀ p data, s.xrep.pipes p = some data →
      (data.key = s.newKey ↔ 2 ^ 31 ∣ s.adds - p) := by
    intro p data hp
    obtain ⟨hlt, hkey, -⟩ := hkeyed.attached p data hp
    rw [hkey, newKey, hkeyed.nextKey_and]
    exact keyOf_eq_iff (Nat.le_of_lt hlt)
  refine ⟨fun p q data data' hp hq => hkeyed.key_inj hp hq, ?_, ?_⟩
  · rintro ⟨hnew, -⟩ p hp hdvd
    obtain ⟨data, hdata⟩ := Option.ne_none_iff_exists'.mp hp
    exact hnew p data hdata ((hkeys p data hdata).mpr hdvd)
  · intro hunwrapped
    refine ⟨fun p data hp heq => ?_, fun sndprio rcvprio => ?_⟩
    · exact hunwrapped p (by simp [hp]) ((hkeys p data hp).mp heq)
    · have hfree : ∀ p, s.xrep.pipes p ≠ none → keyOf first p ≠ keyOf first s.adds := by
        intro p hp heq
        obtain ⟨data, hdata⟩ := Option.ne_none_iff_exists'.mp hp
        have hlt := (hkeyed.attached p data hdata).1
        exact hunwrapped p hp ((keyOf_eq_iff (Nat.le_of_lt hlt)).mp heq)
      obtain ⟨x', hnext, -⟩ := next_add_ok hkeyed hfree sndprio rcvprio
      exact ⟨_, hnext⟩

/-! ## A pipe that stays -/

/-- An attached pipe can be removed. -/
theorem rm_ok {x : Xrep} {p : Nat} (h : x.pipes p ≠ none) :
    ∃ x', x.rm p = .ok x' ∧ ∀ q, x'.pipes q = if q = p then none else x.pipes q := by
  obtain ⟨data, hdata⟩ := Option.ne_none_iff_exists'.mp h
  have hget : x.getData p = .ok data := by simp [Xrep.getData, hdata]
  unfold Xrep.rm
  rw [hget, ok_bind]
  exact ⟨_, rfl, fun q => rfl⟩

/-- The first pipe stays attached while others come and go. -/
theorem stays (n : Nat) (hn : n < 2 ^ 31) :
    ∃ s, system.Reachable s ∧ s.adds = n + 1 ∧ s.xrep.pipes 0 ≠ none ∧
      ∀ q, q ≠ 0 → s.xrep.pipes q = none := by
  have hprio : Priority := ⟨8, by decide⟩
  induction n with
  | zero =>
      obtain ⟨x', hnext, hother, hnew⟩ := next_add_ok (Xrep.keyed_init 0)
        (s := RawRep.init 0) (fun p hp => absurd rfl hp) hprio hprio
      have hinit : system.Reachable (RawRep.init 0) := .start ⟨0, rfl⟩
      have hadd : Enabled (RawRep.init 0) (.add hprio hprio) := trivial
      refine ⟨_, hinit.step ⟨hadd, hnext⟩, rfl, hnew, ?_⟩
      intro q hq
      exact hother q hq
  | succ n ih =>
      obtain ⟨s, hs, hadds, hfirst, hothers⟩ := ih (by omega)
      obtain ⟨first, hkeyed⟩ := keyed_reachable hs
      have hfree : ∀ p, s.xrep.pipes p ≠ none → keyOf first p ≠ keyOf first s.adds := by
        intro p hp heq
        have hzero : p = 0 := by
          by_contra hne
          exact hp (hothers p hne)
        rw [hzero, keyOf_eq_iff (Nat.zero_le _), hadds] at heq
        omega
      obtain ⟨x', hnext, hother, hnew⟩ := next_add_ok hkeyed hfree hprio hprio
      have hadd : Enabled s (.add hprio hprio) := trivial
      have hadded := hs.step ⟨hadd, hnext⟩
      obtain ⟨x'', hrm, hpipes⟩ := rm_ok hnew
      have hremove : Enabled ⟨x', s.adds + 1⟩ (.rm s.adds) := trivial
      have hremoved : next ⟨x', s.adds + 1⟩ (.rm s.adds) = .ok ⟨x'', s.adds + 1⟩ := by
        simp only [next, hrm, ok_bind, pure_eq_ok]
      refine ⟨_, hadded.step ⟨hremove, hremoved⟩, congrArg Nat.succ hadds, ?_, ?_⟩
      · rw [hpipes, if_neg (by omega), hother 0 (by omega)]
        exact hfirst
      · intro q hq
        rw [hpipes]
        split
        · rfl
        · rename_i hne
          exact (hother q hne).trans (hothers q hq)

/-- While the first pipe stays, all other keys are given out. -/
theorem keys_unique_last : ∃ s, system.Reachable s ∧ s.adds = 2 ^ 31 - 1 ∧
    s.xrep.pipes 0 ≠ none ∧ CanAdd s := by
  obtain ⟨s, hs, hadds, hfirst, hothers⟩ := stays (2 ^ 31 - 2) (by decide)
  refine ⟨s, hs, hadds, hfirst, (keys_unique hs).2.mpr ?_⟩
  intro p hp hdvd
  obtain rfl : p = 0 := by
    by_contra hne
    exact hp (hothers p hne)
  omega

/-- When the counter has gone round, the next pipe is given the key of the first one. -/
theorem not_keys_unique : ¬∀ s, system.Reachable s → CanAdd s := by
  intro hall
  obtain ⟨s, hs, hadds, hfirst, -⟩ := stays (2 ^ 31 - 1) (by decide)
  obtain ⟨first, hkeyed⟩ := keyed_reachable hs
  obtain ⟨data, hdata⟩ := Option.ne_none_iff_exists'.mp hfirst
  have hkey : data.key = s.newKey := by
    rw [(hkeyed.attached 0 data hdata).2.1, newKey, hkeyed.nextKey_and,
      keyOf_eq_iff (Nat.zero_le _), hadds]
    decide
  exact (hall s hs).1 0 data hdata hkey

end RawRep

end GridMq.ReqRep
