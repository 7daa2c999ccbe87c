import GridMq.Library.Transition
import Mathlib.Logic.Function.Basic

set_option autoImplicit false

/-!
# Threads in contexts (`src/aio/ctx.c`, `src/aio/fsm.c`)

What a thread does inside a context is up to the machines there; here only the events
matter that they raise to machines of other contexts.  `grid_ctx_leave` detaches the queue
of these under the lock and delivers them one by one after it released the lock.
-/

namespace GridMq.Aio

open GridMq.Library

/-- What `grid_fsm_raiseto` fills in. -/
structure EventData where
  fsm : Nat := 0
  src : Int := -1
  type : Int := -1
  srcptr : Nat := 0
  deriving DecidableEq, Repr

/-- What `grid_fsm_event_process` leaves. -/
def EventData.clear (d : EventData) : EventData := { fsm := d.fsm }

/-- A call of `grid_fsm_raiseto`: how many there were before, in which context it was
made, for which `struct grid_fsm_event` and what it put there. -/
structure Raising where
  number : Nat
  origin : Nat
  event : Nat
  data : EventData
  deriving DecidableEq, Repr

/-- What a thread is in the middle of, innermost first. -/
inductive Frame where
  /-- It holds a context, entered by a call or to process an event. -/
  | inside (c : Nat) (e : Option Nat)
  /-- It has taken an event from its queue and waits for the event's context. -/
  | entering (e : Nat)
  /-- It is in the loop at the end of `grid_ctx_leave` with these events left. -/
  | delivering (eventsto : List Nat)
  deriving DecidableEq, Repr

/-- The events whose processing is still up to the thread. -/
@[simp] def Frame.events : Frame → List Nat
  | .inside _ _ => []
  | .entering e => [e]
  | .delivering eventsto => eventsto

/-- Contexts, events and threads, with what was raised and processed so far. -/
structure Contexts where
  owner : Nat → Option Nat := fun _ => none
  eventsto : Nat → List Nat := fun _ => []
  data : Nat → EventData := fun _ => {}
  inqueue : Nat → Bool := fun _ => false
  threads : Nat → List Frame := fun _ => []
  /-- Number and origin of the call that filled an event in. -/
  mark : Nat → Nat × Nat := fun _ => (0, 0)
  raised : List Raising := []
  processed : List Raising := []

namespace Contexts

/-- What an event says to have been raised. -/
def raising (s : Contexts) (e : Nat) : Raising where
  number := (s.mark e).1
  origin := (s.mark e).2
  event := e
  data := s.data e

/-- The events that a thread has to deliver, in the order it will. -/
def inFlight (s : Contexts) (t : Nat) : List Nat := (s.threads t).flatMap Frame.events

/-- Calls are made by a thread outside of all contexts or inside of one. -/
def canEnter : List Frame → Bool
  | [] => true
  | .inside _ _ :: _ => true
  | _ => false

/-- `grid_ctx_enter`. -/
def enter (s : Contexts) (t c : Nat) : Contexts :=
  { s with
    owner := Function.update s.owner c (some t)
    threads := Function.update s.threads t (.inside c none :: s.threads t) }

/-- `grid_fsm_raiseto`, from a machine of context `c`. -/
def raiseto (s : Contexts) (c e : Nat) (data : EventData) : Contexts :=
  { s with
    data := Function.update s.data e data
    inqueue := Function.update s.inqueue e true
    eventsto := Function.update s.eventsto c (s.eventsto c ++ [e])
    mark := Function.update s.mark e (s.raised.length, c)
    raised := s.raised ++ [⟨s.raised.length, c, e, data⟩] }

/-- The queue of outgoing events becomes the thread's own and the lock is released. -/
def leave (s : Contexts) (t c : Nat) (rest : List Frame) : Contexts :=
  { s with
    owner := Function.update s.owner c none
    eventsto := Function.update s.eventsto c []
    threads := Function.update s.threads t
      (if s.eventsto c = [] then rest else .delivering (s.eventsto c) :: rest) }

/-- `grid_queue_pop` in the loop of `grid_ctx_leave`. -/
def pop (s : Contexts) (t e : Nat) (eventsto : List Nat) (rest : List Frame) : Contexts :=
  { s with
    inqueue := Function.update s.inqueue e false
    threads := Function.update s.threads t (.entering e :: .delivering eventsto :: rest) }

/-- The event's context is entered and `grid_fsm_event_process` feeds the event to its
machine. -/
def process (ctxOf : Nat → Nat) (s : Contexts) (t e : Nat) (rest : List Frame) : Contexts :=
  { s with
    owner := Function.update s.owner (ctxOf (s.data e).fsm) (some t)
    data := Function.update s.data e (s.data e).clear
    threads := Function.update s.threads t (.inside (ctxOf (s.data e).fsm) (some e) :: rest)
    processed := s.processed ++ [s.raising e] }

/-- What a thread can do. -/
inductive Label where
  | enter (t c : Nat)
  | raiseto (t e : Nat) (data : EventData)
  | leave (t : Nat)
  | pop (t : Nat)
  | process (t : Nat)
  deriving DecidableEq, Repr

/-- One step; there is none while a lock is taken, and none when the process is aborted
by the assertion of `grid_queue_push` or by a lock released that is not held:
`grid_ctx_leave` is given the context of the machine that the event names by then. -/
def next (ctxOf : Nat → Nat) (s : Contexts) : Label → Option Contexts
  | .enter t c =>
      if s.owner c = none ∧ canEnter (s.threads t) = true then some (s.enter t c) else none
  | .raiseto t e data =>
      match s.threads t with
      | .inside c _ :: _ => if s.inqueue e = false then some (s.raiseto c e data) else none
      | _ => none
  | .leave t =>
      match s.threads t with
      | .inside c none :: rest => some (s.leave t c rest)
      | .inside c (some e) :: rest =>
          if ctxOf (s.data e).fsm = c then some (s.leave t c rest) else none
      | _ => none
  | .pop t =>
      match s.threads t with
      | .delivering [] :: rest =>
          some { s with threads := Function.update s.threads t rest }
      | .delivering (e :: eventsto) :: rest => some (s.pop t e eventsto rest)
      | _ => none
  | .process t =>
      match s.threads t with
      | .entering e :: rest =>
          if s.owner (ctxOf (s.data e).fsm) = none then some (process ctxOf s t e rest)
          else none
      | _ => none

/-- All runs of any number of threads and contexts. -/
def system (ctxOf : Nat → Nat) : System Contexts Label where
  init s := s = {}
  step s l s' := s.next ctxOf l = some s'

/-! ## What each step does -/

section Steps

variable {ctxOf : Nat → Nat} {s s' : Contexts} {t c e : Nat} {data : EventData}

theorem enter_cases (h : s.next ctxOf (.enter t c) = some s') :
    canEnter (s.threads t) = true ∧ s' = s.enter t c := by
  simp only [next] at h
  split at h
  · rename_i hen
    exact ⟨hen.2, (Option.some.inj h).symm⟩
  · exact absurd h (by simp)

theorem raiseto_cases (h : s.next ctxOf (.raiseto t e data) = some s') :
    ∃ c, s.inqueue e = false ∧ s' = s.raiseto c e data := by
  simp only [next] at h
  split at h
  · rename_i c _ _ _
    split at h
    · rename_i hfree
      exact ⟨c, hfree, (Option.some.inj h).symm⟩
    · exact absurd h (by simp)
  · exact absurd h (by simp)

theorem leave_cases (h : s.next ctxOf (.leave t) = some s') :
    ∃ c e rest, s.threads t = .inside c e :: rest ∧ s' = s.leave t c rest := by
  simp only [next] at h
  split at h
  · rename_i c rest htop
    exact ⟨c, none, rest, htop, (Option.some.inj h).symm⟩
  · rename_i c e rest htop
    split at h
    · exact ⟨c, some e, rest, htop, (Option.some.inj h).symm⟩
    · exact absurd h (by simp)
  · exact absurd h (by simp)

theorem pop_cases (h : s.next ctxOf (.pop t) = some s') :
    (∃ rest, s.threads t = .delivering [] :: rest ∧
      s' = { s with threads := Function.update s.threads t rest }) ∨
    ∃ e eventsto rest, s.threads t = .delivering (e :: eventsto) :: rest ∧
      s' = s.pop t e eventsto rest := by
  simp only [next] at h
  split at h
  · rename_i rest htop
    exact Or.inl ⟨rest, htop, (Option.some.inj h).symm⟩
  · rename_i e eventsto rest htop
    exact Or.inr ⟨e, eventsto, rest, htop, (Option.some.inj h).symm⟩
  · exact absurd h (by simp)

theorem process_cases (h : s.next ctxOf (.process t) = some s') :
    ∃ e rest, s.threads t = .entering e :: rest ∧ s' = process ctxOf s t e rest := by
  simp only [next] at h
  split at h
  · rename_i e rest htop
    split at h
    · exact ⟨e, rest, htop, (Option.some.inj h).symm⟩
    · exact absurd h (by simp)
  · exact absurd h (by simp)

end Steps

end Contexts

end GridMq.Aio
