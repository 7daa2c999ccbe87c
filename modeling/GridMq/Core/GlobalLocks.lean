import GridMq.Library.Locks
import GridMq.Library.Transition

set_option autoImplicit false

/-!
# The locks of the library (`src/core/global.c`, `src/core/sock.c`, `src/aio/ctx.c`)

The global lock and the contexts of the sockets and of the global state machine.  Each call
of the API is the list of the locks it takes and releases; which contexts it enters (those
of the machines that get events from it included), whether it creates or destroys the
global object and what it finds in the socket table is up to the run.  The thread 0 is the
worker.
-/

namespace GridMq.Core.Locking

open GridMq.Library LockOp

/-- A context: that of the global object or that of a socket. -/
inductive Context where
  | self
  | sock (i : Nat)
  deriving DecidableEq, Repr

/-- The global lock and the mutexes of the contexts. -/
inductive Mutex where
  | glock
  | ctx (c : Context)
  deriving DecidableEq, Repr

/-- What the fifteen submissions of the statistics of a socket find: for each one, nothing
when the statistics socket cannot be held, else the sockets whose machines get an event. -/
abbrev Submissions := List (Option (List Nat))

/-- What `grid_global_submit_statistics` finds in each slot of the socket table. -/
abbrev Statistics := List (Nat × Option Submissions)

/-- What threads do apart from locking. -/
inductive Deed where
  /-- `grid_fsm_start (&self.fsm)` and the start of the worker's thread. -/
  | start
  /-- `grid_fsm_stop (&self.fsm)`. -/
  | stop
  /-- `grid_pool_term`, which waits for the worker to finish. -/
  | join
  /-- `grid_sem_wait`, on the semaphores of a socket. -/
  | semWait
  /-- `grid_global_handler` is given the timeout of the statistics timer. -/
  | timeout (found : Statistics)
  deriving DecidableEq, Repr

abbrev Op := LockOp Mutex Deed

/-- `grid_ctx_enter` and `grid_ctx_leave` of these contexts, one after another: a context is
left before the events raised there for other contexts are delivered. -/
def enterEach (cs : List Context) : List Op :=
  cs.flatMap fun c => [lock (.ctx c), unlock (.ctx c)]

/-- `grid_global_hold_socket` and `grid_global_rele_socket`. -/
def underGlock : List Op := [lock .glock, unlock .glock]

/-- The calls that hold a socket. -/
def apiCall (entered : Option (List Context)) : List Op :=
  match entered with
  | none => underGlock
  | some cs => underGlock ++ (enterEach cs ++ underGlock)

/-- `grid_global_term`; there may be sockets left. -/
def globalTerm (last : Bool) : List Op :=
  if last then [lock (.ctx .self), act .stop, unlock (.ctx .self), act .join] else []

/-- `grid_term`. -/
def gridTerm (entered : List Context) : List Op :=
  lock .glock :: (enterEach entered ++ [unlock .glock])

/-- `grid_socket`, with the contexts entered by `grid_global_init` when it does something. -/
def gridSocket (init : Option (List Context)) (last : Bool) : List Op :=
  lock .glock :: ((match init with
    | none => []
    | some cs => enterEach cs ++ [act .start]) ++ globalTerm last ++ [unlock .glock])

/-- `grid_close`, of a socket that cannot be held, or of the socket `s`: the contexts
entered by `grid_sock_stop` under the global lock, and whether it was the last socket. -/
def gridClose (s : Nat) (found : Option (List Context × Bool)) : List Op :=
  match found with
  | none => underGlock
  | some (entered, last) =>
      lock .glock :: (enterEach (.sock s :: entered) ++ [unlock .glock]) ++
        (act .semWait :: act .semWait :: enterEach [.sock s]) ++
        lock .glock :: (globalTerm last ++ [unlock .glock])

/-- The `grid_send` of a submission. -/
def submit (stat : Nat) : Option (List Nat) → List Op
  | none => underGlock
  | some delivered => underGlock ++ (enterEach (.sock stat :: delivered.map .sock) ++ underGlock)

/-- `grid_global_submit_counter`, `grid_global_submit_level` and `grid_global_submit_errors`.
There is nothing to send without a statistics socket. -/
def submitAll (stat : Option Nat) (sends : Submissions) : List Op :=
  match stat with
  | none => []
  | some stat => sends.flatMap (submit stat)

/-- The loop of `grid_global_submit_statistics`, for the slot of one socket. -/
def submitSlot (stat : Option Nat) : Nat × Option Submissions → List Op
  | (_, none) => underGlock
  | (i, some sends) =>
      if stat = some i then underGlock
      else
        lock .glock :: lock (.ctx (.sock i)) :: unlock .glock ::
          (submitAll stat sends ++ [unlock (.ctx (.sock i))])

/-- `grid_global_submit_statistics`. -/
def submitStatistics (stat : Option Nat) (found : Statistics) : List Op :=
  found.flatMap (submitSlot stat)

/-! ## Threads -/

/-- Who holds which lock, and whether the global state machine was stopped and the worker
runs. -/
structure GlobalLocks where
  locks : Locks Nat Mutex Deed := { owner := fun _ => none, todo := fun _ => [] }
  stopped : Bool := false
  running : Bool := false

namespace GlobalLocks

/-- The worker's thread. -/
abbrev worker : Nat := 0

/-- What a thread may begin, or that it goes on. -/
inductive Label where
  | apiCall (t : Nat) (entered : Option (List Context))
  | gridTerm (t : Nat) (entered : List Context)
  | gridSocket (t : Nat) (init : Option (List Context)) (last : Bool)
  | gridClose (t s : Nat) (found : Option (List Context × Bool))
  /-- The worker processes what happened to machines of one context. -/
  | feed (c : Context) (delivered : List Context)
  /-- The worker processes the timeout of the statistics timer. -/
  | statTimer (found : Statistics)
  | goOn (t : Nat)
  deriving DecidableEq, Repr

/-- A thread of the application begins a call. -/
def begin (s : GlobalLocks) (t : Nat) (ops : List Op) : Option GlobalLocks :=
  if t ≠ worker ∧ s.locks.todo t = [] then some { s with locks := s.locks.goOn t ops } else none

/-- The worker begins to process an event. -/
def beginEvent (s : GlobalLocks) (ops : List Op) : Option GlobalLocks :=
  if s.running = true ∧ s.locks.todo worker = [] then
    some { s with locks := s.locks.goOn worker ops }
  else none

/-- A thread that is not waiting does the next thing. -/
def goOn (stat : Option Nat) (s : GlobalLocks) (t : Nat) : Option GlobalLocks :=
  match s.locks.todo t with
  | [] => none
  | lock l :: ops =>
      if s.locks.owner l = none then some { s with locks := s.locks.take t l ops } else none
  | unlock l :: ops => some { s with locks := s.locks.release t l ops }
  | act .start :: ops =>
      some { locks := s.locks.goOn t ops, stopped := false, running := true }
  | act .stop :: ops => some { s with locks := s.locks.goOn t ops, stopped := true }
  | act .join :: ops =>
      if s.locks.todo worker = [] then
        some { s with locks := s.locks.goOn t ops, running := false }
      else none
  | act .semWait :: ops => some { s with locks := s.locks.goOn t ops }
  | act (.timeout found) :: ops =>
      some { s with
        locks := s.locks.goOn t
          ((if s.stopped then [] else submitStatistics stat found) ++ ops) }

def next (stat : Option Nat) (s : GlobalLocks) : Label → Option GlobalLocks
  | .apiCall t entered => s.begin t (Locking.apiCall entered)
  | .gridTerm t entered => s.begin t (Locking.gridTerm entered)
  | .gridSocket t init last => s.begin t (Locking.gridSocket init last)
  | .gridClose t i found => s.begin t (Locking.gridClose i found)
  | .feed c delivered => s.beginEvent (enterEach (c :: delivered))
  | .statTimer found =>
      s.beginEvent [lock (.ctx .self), act (.timeout found), unlock (.ctx .self)]
  | .goOn t => s.goOn stat t

/-- All runs of any number of threads, with or without a statistics socket. -/
def system (stat : Option Nat) : System GlobalLocks Label where
  init s := s = {}
  step s l s' := s.next stat l = some s'

/-! ## Waiting -/

/-- A thread waits for one that holds the lock it needs, or for the worker to finish. -/
def Waits (s : GlobalLocks) (t u : Nat) : Prop :=
  (∃ l, (s.locks.todo t).head? = some (lock l) ∧ s.locks.owner l = some u) ∨
  ((s.locks.todo t).head? = some (act .join) ∧ u = worker ∧ s.locks.todo worker ≠ [])

/-- No thread requests the global lock while it holds a context that the holder of the
global lock waits for. -/
def GlockFirst (s : GlobalLocks) : Prop :=
  ∀ t u c, (s.locks.todo t).head? = some (lock .glock) →
    s.locks.owner (.ctx c) = some t → s.locks.owner .glock = some u →
    (s.locks.todo u).head? ≠ some (lock (.ctx c))

/-- No thread waits for the worker to finish while it holds a lock that the worker still
needs. -/
def JoinsFree (s : GlobalLocks) : Prop :=
  ∀ t l, (s.locks.todo t).head? = some (act .join) → s.locks.owner l = some t →
    lock l ∉ s.locks.todo worker

/-- The order of the locks is kept and no thread waits for itself. -/
def LockOrder (s : GlobalLocks) : Prop :=
  GlockFirst s ∧ JoinsFree s ∧ ∀ t, ¬Relation.TransGen s.Waits t t

/-! ## When it is kept -/

/-- What is still done under the global lock enters a context or waits for the worker. -/
def EntersUnderGlock (ops : List Op) : Prop :=
  ∃ op ∈ ops.takeWhile (· ≠ unlock .glock), (∃ c, op = lock (.ctx c)) ∨ op = act .join

instance (ops : List Op) : Decidable (EntersUnderGlock ops) :=
  decidable_of_iff
    ((ops.takeWhile (· ≠ unlock .glock)).any fun op =>
      match op with
      | lock (.ctx _) => true
      | act .join => true
      | _ => false)
    (by
      rw [List.any_eq_true]
      apply exists_congr
      intro op
      apply and_congr_right
      intro _
      match op with
      | lock .glock => simp
      | lock (.ctx c) => simp
      | unlock l => simp
      | act .join => simp
      | act .start => simp
      | act .stop => simp
      | act .semWait => simp
      | act (.timeout _) => simp)

/-- The worker is submitting statistics. -/
def Submitting (s : GlobalLocks) : Prop := lock .glock ∈ s.locks.todo worker

instance (s : GlobalLocks) : Decidable s.Submitting := inferInstanceAs (Decidable (_ ∈ _))

/-- A thread holds the global lock and will enter a context, or wait for the worker, before
it releases it. -/
def Closing (s : GlobalLocks) : Prop :=
  ∃ t, s.locks.owner .glock = some t ∧ EntersUnderGlock (s.locks.todo t)

instance (s : GlobalLocks) : Decidable s.Closing :=
  match h : s.locks.owner .glock with
  | none => isFalse fun ⟨_, hown, _⟩ => absurd (h.symm.trans hown) (by simp)
  | some t =>
      if hops : EntersUnderGlock (s.locks.todo t) then isTrue ⟨t, h, hops⟩
      else isFalse fun ⟨u, hown, hu⟩ =>
        hops (Option.some.inj (h.symm.trans hown) ▸ hu)

/-- No submission wakes a machine of the socket whose statistics are submitted. -/
def NotToItself (stat : Option Nat) (found : Statistics) : Prop :=
  ∀ slot ∈ found, stat ≠ some slot.1 → ∀ sends ∈ slot.2, ∀ delivered ∈ sends,
    ∀ js ∈ delivered, slot.1 ∉ js

instance (stat : Option Nat) (found : Statistics) : Decidable (NotToItself stat found) := by
  unfold NotToItself
  infer_instance

/-- Before the step: the global lock is not taken, in order to enter contexts under it,
while statistics are being submitted; their submission does not begin while a thread is at
that, and none of the messages goes to a socket whose statistics are in it. -/
def Apart (stat : Option Nat) (s : GlobalLocks) : Label → Prop
  | .goOn t =>
      match s.locks.todo t with
      | lock .glock :: ops => t ≠ worker → EntersUnderGlock ops → ¬s.Submitting
      | act (.timeout found) :: _ => s.stopped = false → ¬s.Closing ∧ NotToItself stat found
      | _ => True
  | _ => True

instance (stat : Option Nat) (s : GlobalLocks) (l : Label) : Decidable (Apart stat s l) := by
  unfold Apart
  split
  · split
    · infer_instance
    · infer_instance
    · infer_instance
  · infer_instance

end GlobalLocks

end GridMq.Core.Locking
