import GridMq.Aio.Worker
import GridMq.Library.Transition

set_option autoImplicit false

/-!
# Runs of a worker with its timers

Owners start timers that are idle and stop them at any time, other machines post and
cancel their tasks, and the worker's thread goes on in between.  What is posted, what is
executed and what happens to each timer are recorded.
-/

namespace GridMq.Aio

open GridMq.Library

/-- A worker and what happened so far. -/
structure WorkerRun where
  worker : Worker := {}
  posted : List WorkerTask := []
  executed : List WorkerTask := []
  life : Nat → List TimerStep := fun _ => []

namespace WorkerRun

/-- What can happen. -/
inductive Label where
  | start (t : Nat) (timeout : Int)
  | stop (t : Nat)
  | execute (n : Nat)
  | cancel (n : Nat)
  | takeTasks
  | pop
  | expire (t : Nat)
  | feed
  deriving DecidableEq, Repr

/-- Timers are started when they are idle; a task of another machine is posted when it is
not queued; the worker does one thing at a time. -/
def Enabled (r : WorkerRun) : Label → Prop
  | .start t timeout => (r.worker.timers t).isIdle false = true ∧ timeout ≥ 0
  | .stop _ => True
  | .execute n => .other n ∉ r.worker.batch ++ r.worker.tasks
  | .cancel _ => True
  | .takeTasks => r.worker.taken = none ∧ r.worker.batch = []
  | .pop => r.worker.taken = none ∧ r.worker.batch ≠ []
  | .expire t =>
      r.worker.taken = none ∧ r.worker.batch = [] ∧ (r.worker.timers t).armed = true
  | .feed => r.worker.taken ≠ none

instance (r : WorkerRun) (l : Label) : Decidable (r.Enabled l) := by
  cases l <;> unfold Enabled <;> infer_instance

/-- Something happens to a timer. -/
def live (r : WorkerRun) (t : Nat) (e : TimerStep) : WorkerRun :=
  { r with life := fun u => if u = t then r.life u ++ [e] else r.life u }

/-- What the owner of a timer gets. -/
def deliver (r : WorkerRun) : Option (Nat × TimerEvent) → WorkerRun
  | none => r
  | some (t, .timeout) => r.live t .timeout
  | some (t, .stopped) => r.live t .stopped

/-- The task that was taken, if it was one. -/
def takenTask : Option Taken → List WorkerTask
  | some (.task task) => [task]
  | _ => []

/-- One step, or what fails in it. -/
def next (r : WorkerRun) : Label → Except Abort WorkerRun
  | .start t timeout => do
      let worker ← r.worker.start t timeout
      return { r.live t .started with
        worker := worker, posted := r.posted ++ [.timer t .startTask] }
  | .stop t => do
      let worker ← r.worker.stop t
      return if (r.worker.timers t).fsm = .active then
        { r.live t .stopRequested with
          worker := worker, posted := r.posted ++ [.timer t .stopTask] }
      else { r with worker := worker }
  | .execute n => do
      let worker ← r.worker.execute n
      return { r with worker := worker, posted := r.posted ++ [.other n] }
  | .cancel n => .ok { r with worker := r.worker.cancel n }
  | .takeTasks => .ok { r with worker := r.worker.takeTasks }
  | .pop => .ok { r with worker := r.worker.pop }
  | .expire t => .ok { r with worker := r.worker.expire t }
  | .feed => do
      let (worker, e) ← r.worker.feed
      return { r with
        worker := worker
        executed := r.executed ++ takenTask r.worker.taken }.deliver e

/-- A worker from its creation on, with all its timers idle. -/
def system : System WorkerRun Label where
  init r := r = {}
  step r l r' := r.Enabled l ∧ r.next l = .ok r'

/-! ## The invariant -/

/-- The tasks of a timer among those of a worker. -/
def tasksOf (t : Nat) : List WorkerTask → List TimerTask
  | [] => []
  | .timer u k :: l => if u = t then k :: tasksOf t l else tasksOf t l
  | .other _ :: l => tasksOf t l

/-- Where the worker is with a timer and its owner. -/
inductive Stage (timer : Timer) (expired : Prop) (pending : List TimerTask) :
    TimerPhase → Prop where
  | quiet (hfsm : timer.fsm = .idle) (hstate : timer.state = .idle) (hpending : pending = [])
      (harmed : timer.armed = false) (hexpired : ¬expired) : Stage timer expired pending .idle
  | starting (hfsm : timer.fsm = .active) (hstate : timer.state = .active)
      (hpending : pending = [.startTask]) (harmed : timer.armed = false)
      (htimeout : 0 ≤ timer.timeout) (hexpired : ¬expired) :
      Stage timer expired pending (.running false)
  | running (fired : Bool) (hfsm : timer.fsm = .active) (hstate : timer.state = .active)
      (hpending : pending = []) (htimeout : timer.timeout = -1)
      (harmed : timer.armed = true → fired = false ∧ ¬expired)
      (hexpired : expired → fired = false) : Stage timer expired pending (.running fired)
  | stopping (hfsm : timer.fsm = .stopping) (hstate : timer.state = .stopping)
      (hpending : pending = [.startTask, .stopTask] ∨ pending = [.stopTask]) :
      Stage timer expired pending .stopping

/-- The tasks that have yet to be fed, the one that was taken first. -/
def pending (w : Worker) : List WorkerTask := takenTask w.taken ++ (w.batch ++ w.tasks)

/-- The invariant. -/
structure Inv (r : WorkerRun) : Prop where
  queued : ∀ t, (r.worker.timers t).tasks = tasksOf t (r.worker.batch ++ r.worker.tasks)
  stage : ∀ t, ∃ phase, TimerPhase.after .idle (r.life t) = some phase ∧
    Stage (r.worker.timers t) (r.worker.taken = some (.expired t))
      (tasksOf t (pending r.worker)) phase
  order : (r.executed ++ pending r.worker).Sublist r.posted

theorem tasksOf_append (t : Nat) (l l' : List WorkerTask) :
    tasksOf t (l ++ l') = tasksOf t l ++ tasksOf t l' := by
  induction l with
  | nil => rfl
  | cons task l ih =>
      cases task with
      | timer u k =>
          rw [List.cons_append, tasksOf, tasksOf, ih]
          split <;> rfl
      | other n => exact ih

theorem tasksOf_self (t : Nat) (k : TimerTask) : tasksOf t [.timer t k] = [k] := by
  simp [tasksOf]

theorem tasksOf_ne {t u : Nat} (k : TimerTask) (h : t ≠ u) : tasksOf u [.timer t k] = [] := by
  simp [tasksOf, h]

theorem tasksOf_erase (t n : Nat) (l : List WorkerTask) :
    tasksOf t (l.erase (.other n)) = tasksOf t l := by
  induction l with
  | nil => rfl
  | cons task l ih =>
      cases task with
      | timer u k =>
          rw [List.erase_cons_tail (by simp), tasksOf, tasksOf, ih]
      | other m =>
          by_cases hm : m = n
          · rw [hm, List.erase_cons_head]
            rfl
          · rw [List.erase_cons_tail (by simpa using hm)]
            exact ih

theorem inv_init : Inv {} where
  queued _ := rfl
  stage _ := ⟨.idle, rfl, .quiet rfl rfl rfl rfl (by simp)⟩
  order := List.Sublist.refl _

variable {r r' : WorkerRun} {t : Nat}

/-! ## The steps -/

/-- A timer that posts a task: it moves to the phase that follows, the others stay. -/
theorem Inv.post {timer : Timer} {k : TimerTask} {e : TimerStep} {phase phase' : TimerPhase}
    (h : Inv r) (htasks : timer.tasks = (r.worker.timers t).tasks ++ [k])
    (hlife : TimerPhase.after .idle (r.life t) = some phase) (hnext : phase.next e = some phase')
    (hstage : Stage timer (r.worker.taken = some (.expired t))
      (tasksOf t (pending r.worker) ++ [k]) phase') :
    Inv { r.live t e with
      worker := { r.worker.setTimer t timer with tasks := r.worker.tasks ++ [.timer t k] }
      posted := r.posted ++ [.timer t k] } := by
  have hpending : pending { r.worker.setTimer t timer with
      tasks := r.worker.tasks ++ [.timer t k] } = pending r.worker ++ [.timer t k] := by
    simp [pending, Worker.setTimer, List.append_assoc]
  refine ⟨?_, ?_, ?_⟩
  · intro u
    rw [← List.append_assoc, tasksOf_append]
    simp only [Worker.setTimer]
    split
    · rename_i hu
      subst hu
      rw [htasks, h.queued u, tasksOf_self]
    · rename_i hu
      rw [h.queued u, tasksOf_ne k (Ne.symm hu), List.append_nil]
  · intro u
    rw [hpending, tasksOf_append]
    by_cases hu : u = t
    · subst hu
      refine ⟨phase', ?_, ?_⟩
      · simp only [live, if_true]
        exact TimerPhase.after_concat hlife hnext
      · rw [tasksOf_self]
        simp only [Worker.setTimer, if_true]
        exact hstage
    · rw [tasksOf_ne k (Ne.symm hu), List.append_nil]
      simp only [live, Worker.setTimer, if_neg hu]
      exact h.stage u
  · rw [hpending, ← List.append_assoc]
    exact h.order.append_right _

theorem tasks_eq_nil (h : Inv r) (hpending : tasksOf t (pending r.worker) = []) :
    (r.worker.timers t).tasks = [] := by
  rw [pending, tasksOf_append] at hpending
  rw [h.queued t]
  exact (List.append_eq_nil_iff.mp hpending).2

theorem start_spec {timeout : Int} (h : Inv r) (hen : r.Enabled (.start t timeout)) :
    ∃ r', r.next (.start t timeout) = .ok r' ∧ Inv r' := by
  obtain ⟨hidle, htime⟩ := hen
  obtain ⟨phase, hlife, hstage⟩ := h.stage t
  have hfsm : (r.worker.timers t).fsm = .idle := by simpa [Timer.isIdle] using hidle
  cases hstage with
  | starting hno => exact absurd (hfsm.symm.trans hno) (by simp)
  | running _ hno => exact absurd (hfsm.symm.trans hno) (by simp)
  | stopping hno => exact absurd (hfsm.symm.trans hno) (by simp)
  | quiet _ hstate hpending harmed hexpired =>
      have htasks := tasks_eq_nil h hpending
      have hcall : (r.worker.timers t).start false timeout = .ok { r.worker.timers t with
          timeout := timeout, state := .active
          tasks := (r.worker.timers t).tasks ++ [.startTask], fsm := .active } := by
        simp [Timer.start, Timer.isIdle, gridAssert, htime, hfsm, hstate, Timer.execute, htasks]
      refine ⟨_, by rw [next, Worker.start, hcall]; rfl, ?_⟩
      refine h.post rfl hlife rfl (.starting rfl rfl ?_ harmed htime hexpired)
      rw [hpending]
      rfl

theorem stop_spec (h : Inv r) : ∃ r', r.next (.stop t) = .ok r' ∧ Inv r' := by
  by_cases hfsm : (r.worker.timers t).fsm = .active
  · obtain ⟨phase, hlife, hstage⟩ := h.stage t
    have hstep : ∃ fired, phase = .running fired ∧
        (tasksOf t (pending r.worker) = [.startTask] ∨ tasksOf t (pending r.worker) = []) := by
      cases hstage with
      | quiet hno => exact absurd (hfsm.symm.trans hno) (by simp)
      | stopping hno => exact absurd (hfsm.symm.trans hno) (by simp)
      | starting _ _ hpending => exact ⟨false, rfl, Or.inl hpending⟩
      | running fired _ _ hpending => exact ⟨fired, rfl, Or.inr hpending⟩
    obtain ⟨fired, rfl, hpending⟩ := hstep
    have hfree : TimerTask.stopTask ∉ (r.worker.timers t).tasks := by
      rw [h.queued t]
      intro hmem
      have hmem' : TimerTask.stopTask ∈ tasksOf t (pending r.worker) := by
        rw [pending, tasksOf_append]
        exact List.mem_append_right _ hmem
      rcases hpending with hp | hp <;> rw [hp] at hmem' <;> simp at hmem'
    have hcall : (r.worker.timers t).stop = .ok { r.worker.timers t with
        fsm := .stopping, state := .stopping
        tasks := (r.worker.timers t).tasks ++ [.stopTask] } := by
      simp [Timer.stop, hfsm, Timer.execute, hfree]
    refine ⟨_, by simp only [next, Worker.stop, if_pos hfsm, hcall, ok_bind, pure_eq_ok]; rfl, ?_⟩
    refine h.post rfl hlife ?_ (.stopping rfl rfl ?_)
    · cases fired <;> rfl
    · rcases hpending with hp | hp <;> rw [hp]
      · exact Or.inl rfl
      · exact Or.inr rfl
  · refine ⟨r, ?_, h⟩
    simp only [next, Worker.stop, if_neg hfsm, ok_bind, pure_eq_ok]

/-- Steps of the worker that change no task of a timer. -/
theorem Inv.same {worker : Worker} {posted executed : List WorkerTask} (h : Inv r)
    (htimers : worker.timers = r.worker.timers)
    (hqueued : ∀ u, tasksOf u (worker.batch ++ worker.tasks) =
      tasksOf u (r.worker.batch ++ r.worker.tasks))
    (htaken : ∀ u, worker.taken = some (.expired u) ↔ r.worker.taken = some (.expired u))
    (hpending : ∀ u, tasksOf u (pending worker) = tasksOf u (pending r.worker))
    (horder : (executed ++ pending worker).Sublist posted) :
    Inv { r with worker := worker, posted := posted, executed := executed } where
  queued u := by
    simp only [htimers]
    rw [h.queued u, hqueued u]
  stage u := by
    simp only [htimers]
    rw [propext (htaken u), hpending u]
    exact h.stage u
  order := horder

theorem execute_spec {n : Nat} (h : Inv r) (hen : r.Enabled (.execute n)) :
    ∃ r', r.next (.execute n) = .ok r' ∧ Inv r' := by
  have hpending : pending { r.worker with tasks := r.worker.tasks ++ [.other n] } =
      pending r.worker ++ [.other n] := by
    simp [pending, List.append_assoc]
  have hfree : WorkerTask.other n ∉ r.worker.batch ++ r.worker.tasks := hen
  refine ⟨_, by rw [next, Worker.execute, gridAssert_pos hfree]; rfl, ?_⟩
  refine h.same rfl ?_ (fun _ => Iff.rfl) ?_ ?_
  · intro u
    rw [← List.append_assoc, tasksOf_append]
    exact List.append_nil _
  · intro u
    rw [hpending, tasksOf_append]
    exact List.append_nil _
  · rw [hpending, ← List.append_assoc]
    exact h.order.append_right _

theorem cancel_spec (n : Nat) (h : Inv r) : ∃ r', r.next (.cancel n) = .ok r' ∧ Inv r' := by
  refine ⟨_, rfl, h.same rfl ?_ (fun _ => Iff.rfl) ?_ ?_⟩
  · intro u
    simp only [Worker.cancel, tasksOf_append, tasksOf_erase]
  · intro u
    simp only [pending, Worker.cancel, tasksOf_append, tasksOf_erase]
  · refine List.Sublist.trans ?_ h.order
    apply List.Sublist.append_left
    apply List.Sublist.append_left
    apply List.Sublist.append_left
    exact List.erase_sublist

theorem takeTasks_spec (h : Inv r) (hen : r.Enabled .takeTasks) :
    ∃ r', r.next .takeTasks = .ok r' ∧ Inv r' := by
  obtain ⟨-, hbatch⟩ := hen
  have hqueue : r.worker.takeTasks.batch ++ r.worker.takeTasks.tasks =
      r.worker.batch ++ r.worker.tasks := by
    rw [hbatch]
    exact List.append_nil _
  have hpending : pending r.worker.takeTasks = pending r.worker :=
    congrArg (takenTask r.worker.taken ++ ·) hqueue
  refine ⟨_, rfl, h.same rfl (fun u => by rw [hqueue]) (fun _ => Iff.rfl)
    (fun u => by rw [hpending]) ?_⟩
  rw [hpending]
  exact h.order

/-- A timer whose tasks in the queues, or whose place in the timeouts, the worker has
changed without a step that its owner sees. -/
theorem Inv.unseen {worker : Worker} {timer : Timer} (h : Inv r)
    (htimers : ∀ u, worker.timers u = if u = t then timer else r.worker.timers u)
    (hqueued : ∀ u, u ≠ t → tasksOf u (worker.batch ++ worker.tasks) =
      tasksOf u (r.worker.batch ++ r.worker.tasks))
    (hqueuedT : timer.tasks = tasksOf t (worker.batch ++ worker.tasks))
    (htaken : ∀ u, u ≠ t →
      (worker.taken = some (.expired u) ↔ r.worker.taken = some (.expired u)))
    (hpending : pending worker = pending r.worker)
    (hstage : ∀ phase, Stage (r.worker.timers t) (r.worker.taken = some (.expired t))
      (tasksOf t (pending r.worker)) phase →
        Stage timer (worker.taken = some (.expired t)) (tasksOf t (pending r.worker)) phase) :
    Inv { r with worker := worker } where
  queued u := by
    simp only [htimers u]
    split
    · rename_i hu
      rw [hu]
      exact hqueuedT
    · rename_i hu
      rw [h.queued u, hqueued u hu]
  stage u := by
    obtain ⟨phase, hlife, hs⟩ := h.stage u
    refine ⟨phase, hlife, ?_⟩
    rw [hpending]
    simp only [htimers u]
    split
    · rename_i hu
      subst hu
      exact hstage phase hs
    · rename_i hu
      rw [propext (htaken u hu)]
      exact hs
  order := by
    rw [hpending]
    exact h.order

/-- A stage looks at the tasks of its timer only through those that are pending. -/
theorem Stage.congr {timer timer' : Timer} {expired expired' : Prop} {l : List TimerTask}
    {phase : TimerPhase} (h : Stage timer expired l phase) (hfsm : timer'.fsm = timer.fsm)
    (hstate : timer'.state = timer.state) (harmed : timer'.armed = timer.armed)
    (htimeout : timer'.timeout = timer.timeout) (hexpired : expired' ↔ expired) :
    Stage timer' expired' l phase := by
  obtain ⟨fsm, state, timeout, tasks, armed⟩ := timer
  obtain ⟨fsm', state', timeout', tasks', armed'⟩ := timer'
  simp only at hfsm hstate harmed htimeout
  subst hfsm hstate harmed htimeout
  rw [propext hexpired]
  cases h with
  | quiet h1 h2 h3 h4 h5 => exact .quiet h1 h2 h3 h4 h5
  | starting h1 h2 h3 h4 h5 h6 => exact .starting h1 h2 h3 h4 h5 h6
  | running fired h1 h2 h3 h4 h5 h6 => exact .running fired h1 h2 h3 h4 h5 h6
  | stopping h1 h2 h3 => exact .stopping h1 h2 h3

theorem pop_spec (h : Inv r) (hen : r.Enabled .pop) :
    ∃ r', r.next .pop = .ok r' ∧ Inv r' := by
  obtain ⟨hnone, hne⟩ := hen
  obtain ⟨task, batch, hbatch⟩ := List.exists_cons_of_ne_nil hne
  have hpending : pending r.worker = task :: (batch ++ r.worker.tasks) := by
    rw [pending, hnone, hbatch]
    rfl
  refine ⟨_, rfl, ?_⟩
  simp only [Worker.pop, hbatch]
  cases task with
  | other n =>
      refine h.same rfl (fun u => ?_) (fun u => ?_) (fun u => ?_) ?_
      · rw [hbatch]
        rfl
      · simp [hnone]
      · rw [hpending]
        rfl
      · have horder := h.order
        rw [hpending] at horder
        exact horder
  | timer t k =>
      have hqueued := h.queued t
      rw [hbatch, List.cons_append, tasksOf, if_pos rfl] at hqueued
      refine h.unseen (fun u => rfl) (fun u hu => ?_) ?_ (fun u _ => ?_) ?_ ?_
      · rw [hbatch, List.cons_append, tasksOf, if_neg (Ne.symm hu)]
        rfl
      · change (r.worker.timers t).tasks.erase k = _
        rw [hqueued, List.erase_cons_head]
        rfl
      · simp [Worker.setTimer, hnone]
      · rw [hpending]
        rfl
      · intro phase hstage
        exact hstage.congr rfl rfl rfl rfl (by simp [Worker.setTimer, hnone])

theorem expire_spec (h : Inv r) (hen : r.Enabled (.expire t)) :
    ∃ r', r.next (.expire t) = .ok r' ∧ Inv r' := by
  obtain ⟨hnone, hbatch, harmed⟩ := hen
  refine ⟨_, rfl, ?_⟩
  refine h.unseen (fun u => rfl) (fun u _ => rfl) (h.queued t) (fun u hu => ?_) ?_ ?_
  · rw [hnone]
    simp [Worker.expire, Ne.symm hu]
  · rw [pending, pending, hnone]
    rfl
  · intro phase hstage
    cases hstage with
    | quiet _ _ _ hoff => exact absurd (hoff.symm.trans harmed) (by simp)
    | starting _ _ _ hoff => exact absurd (hoff.symm.trans harmed) (by simp)
    | running fired hfsm hstate hpending htimeout hon _ =>
        exact .running fired hfsm hstate hpending htimeout (fun hno => absurd hno (by simp))
          (fun _ => (hon harmed).1)
    | stopping hfsm hstate hpending => exact .stopping hfsm hstate hpending

/-- What was taken is fed to timer `t`, which leads its owner through some steps. -/
theorem Inv.fed {x : Taken} (h : Inv r) (timer : Timer) (steps : List TimerStep)
    (htaken : r.worker.taken = some x)
    (hother : ∀ u, u ≠ t → x ≠ .expired u ∧ tasksOf u (takenTask (some x)) = [])
    (htasks : timer.tasks = (r.worker.timers t).tasks)
    (hstage : ∃ phase, TimerPhase.after .idle (r.life t ++ steps) = some phase ∧
      Stage timer False (tasksOf t (r.worker.batch ++ r.worker.tasks)) phase) :
    Inv { r with
      worker := { r.worker.setTimer t timer with taken := none }
      executed := r.executed ++ takenTask r.worker.taken
      life := fun u => if u = t then r.life u ++ steps else r.life u } where
  queued u := by
    simp only [Worker.setTimer]
    split
    · rename_i hu
      rw [hu, htasks]
      exact h.queued t
    · exact h.queued u
  stage u := by
    by_cases hu : u = t
    · subst hu
      obtain ⟨phase, hlife, hs⟩ := hstage
      refine ⟨phase, by simp only [if_true]; exact hlife, ?_⟩
      simp only [Worker.setTimer, if_true]
      exact hs.congr rfl rfl rfl rfl (by simp)
    · obtain ⟨phase, hlife, hs⟩ := h.stage u
      obtain ⟨hx, hnil⟩ := hother u hu
      refine ⟨phase, by simp only [if_neg hu]; exact hlife, ?_⟩
      rw [pending, tasksOf_append, htaken, hnil, List.nil_append] at hs
      simp only [Worker.setTimer, if_neg hu]
      exact hs.congr rfl rfl rfl rfl (by simp [hx])
  order := by
    rw [List.append_assoc]
    exact h.order

theorem life_nil (life : Nat → List TimerStep) (t : Nat) :
    (fun u => if u = t then life u ++ [] else life u) = life := by
  funext u
  simp

theorem feedTask_spec {k : TimerTask} (h : Inv r)
    (htaken : r.worker.taken = some (.task (.timer t k))) :
    ∃ r', r.next .feed = .ok r' ∧ Inv r' := by
  obtain ⟨phase, hlife, hstage⟩ := h.stage t
  have hpending : tasksOf t (pending r.worker) =
      k :: tasksOf t (r.worker.batch ++ r.worker.tasks) := by
    rw [pending, tasksOf_append, htaken]
    simp [takenTask, tasksOf]
  have hother : ∀ u, u ≠ t → Taken.task (.timer t k) ≠ .expired u ∧
      tasksOf u (takenTask (some (.task (.timer t k)))) = [] :=
    fun u hu => ⟨by simp, tasksOf_ne k (Ne.symm hu)⟩
  rw [hpending] at hstage
  cases hstage with
  | quiet _ _ hp => exact absurd hp (by simp)
  | running _ _ _ hp => exact absurd hp (by simp)
  | starting hfsm hstate hp harmed htimeout _ =>
      -- the timeout is added to the set
      obtain ⟨rfl, hrest⟩ := List.cons.inj hp
      have hcall : r.worker.feed = .ok ({ r.worker.setTimer t { r.worker.timers t with
          armed := true, timeout := -1 } with taken := none }, none) := by
        simp [Worker.feed, htaken, gridAssert, harmed, Timer.feedTask, hfsm, hstate, htimeout]
      have hfed := h.fed { r.worker.timers t with armed := true, timeout := -1 } [] htaken hother
        rfl ⟨.running false, by simpa using hlife,
          .running false hfsm hstate hrest rfl (by simp) (by simp)⟩
      rw [life_nil] at hfed
      exact ⟨_, by rw [next, hcall]; rfl, hfed⟩
  | stopping hfsm hstate hp =>
      rcases hp with hp | hp
      · -- the timer was stopped before the worker saw its start
        obtain ⟨rfl, hrest⟩ := List.cons.inj hp
        have hcall : r.worker.feed = .ok ({ r.worker.setTimer t (r.worker.timers t) with
            taken := none }, none) := by
          simp [Worker.feed, htaken, gridAssert, Timer.feedTask, hfsm, hstate]
        have hfed := h.fed (r.worker.timers t) [] htaken hother rfl
          ⟨.stopping, by simpa using hlife, .stopping hfsm hstate (Or.inr hrest)⟩
        rw [life_nil] at hfed
        exact ⟨_, by rw [next, hcall]; rfl, hfed⟩
      · -- the stop is carried out
        obtain ⟨rfl, hrest⟩ := List.cons.inj hp
        have hcall : r.worker.feed = .ok ({ r.worker.setTimer t { r.worker.timers t with
            armed := false, state := .idle, fsm := .idle } with taken := none },
              some (t, .stopped)) := by
          simp [Worker.feed, htaken, gridAssert, Timer.feedTask, hfsm, hstate]
        exact ⟨_, by rw [next, hcall]; rfl,
          h.fed { r.worker.timers t with armed := false, state := .idle, fsm := .idle }
            [.stopped] htaken hother rfl
              ⟨.idle, TimerPhase.after_concat hlife rfl, .quiet rfl rfl hrest rfl (by simp)⟩⟩

theorem feedExpired_spec (h : Inv r) (htaken : r.worker.taken = some (.expired t)) :
    ∃ r', r.next .feed = .ok r' ∧ Inv r' := by
  obtain ⟨phase, hlife, hstage⟩ := h.stage t
  have hpending : pending r.worker = r.worker.batch ++ r.worker.tasks := by
    rw [pending, htaken]
    rfl
  have hother : ∀ u, u ≠ t → Taken.expired t ≠ .expired u ∧
      tasksOf u (takenTask (some (.expired t))) = [] :=
    fun u hu => ⟨by simpa using Ne.symm hu, rfl⟩
  rw [hpending] at hstage
  cases hstage with
  | quiet _ _ _ _ hno => exact absurd htaken hno
  | starting _ _ _ _ _ hno => exact absurd htaken hno
  | running fired hfsm hstate hp htimeout harmed hfired =>
      obtain rfl := hfired htaken
      have hcall : r.worker.feed = .ok ({ r.worker.setTimer t { r.worker.timers t with
          armed := false } with taken := none }, some (t, .timeout)) := by
        simp [Worker.feed, htaken, Timer.expire, hfsm, hstate, htimeout]
      exact ⟨_, by rw [next, hcall]; rfl,
        h.fed { r.worker.timers t with armed := false } [.timeout] htaken hother rfl
          ⟨.running true, TimerPhase.after_concat hlife rfl,
            .running true hfsm hstate hp htimeout (by simp) (by simp)⟩⟩
  | stopping hfsm hstate hp =>
      have hcall : r.worker.feed = .ok ({ r.worker.setTimer t { r.worker.timers t with
          armed := false } with taken := none }, none) := by
        simp [Worker.feed, htaken, Timer.expire, hfsm, hstate]
      have hfed := h.fed { r.worker.timers t with armed := false } [] htaken hother rfl
        ⟨.stopping, by simpa using hlife, .stopping hfsm hstate hp⟩
      rw [life_nil] at hfed
      exact ⟨_, by rw [next, hcall]; rfl, hfed⟩

theorem feed_spec (h : Inv r) (hen : r.Enabled .feed) :
    ∃ r', r.next .feed = .ok r' ∧ Inv r' := by
  obtain ⟨x, htaken⟩ := Option.ne_none_iff_exists'.mp hen
  cases x with
  | expired t => exact feedExpired_spec h htaken
  | task task =>
      cases task with
      | timer t k => exact feedTask_spec h htaken
      | other n =>
          refine ⟨_, by rw [next, Worker.feed, htaken]; rfl, ?_⟩
          refine h.same rfl (fun _ => rfl) (fun u => ?_) (fun u => ?_) ?_
          · simp [htaken]
          · rw [pending, pending, htaken]
            rfl
          · have horder := h.order
            rw [pending, htaken] at horder
            rw [List.append_assoc]
            exact horder

theorem inv_step {l : Label} (h : Inv r) (hen : r.Enabled l) :
    ∃ r', r.next l = .ok r' ∧ Inv r' := by
  cases l with
  | start t timeout => exact start_spec h hen
  | stop t => exact stop_spec h
  | execute n => exact execute_spec h hen
  | cancel n => exact cancel_spec n h
  | takeTasks => exact takeTasks_spec h hen
  | pop => exact pop_spec h hen
  | expire t => exact expire_spec h hen
  | feed => exact feed_spec h hen

theorem inv_reachable (h : system.Reachable r) : Inv r := by
  apply h.invariant
  · rintro r rfl
    exact inv_init
  · rintro r l r' - hinv ⟨hen, hnext⟩
    obtain ⟨r₁, hnext₁, hinv₁⟩ := inv_step hinv hen
    obtain rfl := Except.ok.inj (hnext.symm.trans hnext₁)
    exact hinv₁

/-! ## What owners can rely on -/

theorem count_tasksOf (t : Nat) (k : TimerTask) (l : List WorkerTask) :
    l.count (.timer t k) = (tasksOf t l).count k := by
  induction l with
  | nil => rfl
  | cons task l ih =>
      cases task with
      | other n =>
          rw [List.count_cons_of_ne (by simp), ih]
          rfl
      | timer u k' =>
          rw [tasksOf]
          split
          · rename_i hu
            subst hu
            simp [List.count_cons, ih]
          · rename_i hu
            rw [List.count_cons_of_ne (by simp [hu]), ih]

theorem Stage.count_le {timer : Timer} {expired : Prop} {l : List TimerTask} {phase : TimerPhase}
    (h : Stage timer expired l phase) (k : TimerTask) : l.count k ≤ 1 := by
  cases h with
  | quiet _ _ hp => simp [hp]
  | starting _ _ hp => cases k <;> simp [hp]
  | running _ _ _ hp => simp [hp]
  | stopping _ _ hp => rcases hp with hp | hp <;> cases k <;> simp [hp]

theorem Stage.stopping_iff {timer : Timer} {expired : Prop} {l : List TimerTask}
    {phase : TimerPhase} (h : Stage timer expired l phase) :
    phase = .stopping ↔ .stopTask ∈ l := by
  cases h with
  | quiet _ _ hp => simp [hp]
  | starting _ _ hp => simp [hp]
  | running _ _ _ hp => simp [hp]
  | stopping _ _ hp => rcases hp with hp | hp <;> simp [hp]

/-- As many times as a timer was stopped it said so, but for a stop whose task the worker
has yet to execute. -/
theorem Inv.count_stopped (h : Inv r) (t : Nat) :
    (r.life t).count .stopped + (if .stopTask ∈ tasksOf t (pending r.worker) then 1 else 0) =
      (r.life t).count .stopRequested := by
  obtain ⟨phase, hlife, hstage⟩ := h.stage t
  have hcount := TimerPhase.count_stopped hlife
  rw [if_neg (show ¬TimerPhase.idle = .stopping by simp), Nat.add_zero] at hcount
  rw [← hcount]
  simp only [hstage.stopping_iff]

/-- Between one step and a later TIMEOUT the timer was started, if the step leaves it not
waiting for its timeout. -/
theorem Inv.started_between (h : Inv r) {e : TimerStep} {before between rest : List TimerStep}
    (he : e = .stopRequested ∨ e = .timeout)
    (hlife : r.life t = before ++ e :: (between ++ .timeout :: rest)) : .started ∈ between := by
  obtain ⟨phase, hafter, -⟩ := h.stage t
  rw [hlife, TimerPhase.after_append] at hafter
  obtain ⟨first, -, hafter⟩ := Option.bind_eq_some_iff.mp hafter
  obtain ⟨second, hnext, hafter⟩ := Option.bind_eq_some_iff.mp hafter
  rw [List.append_cons, TimerPhase.after_append] at hafter
  obtain ⟨third, hthird, -⟩ := Option.bind_eq_some_iff.mp hafter
  refine TimerPhase.started_of_timeout ?_ hthird
  rcases he with rfl | rfl
  · cases first <;> simp [TimerPhase.next] at hnext
    exact Or.inr (Or.inl hnext.symm)
  · cases first with
    | idle => simp [TimerPhase.next] at hnext
    | stopping => simp [TimerPhase.next] at hnext
    | running fired =>
        cases fired <;> simp [TimerPhase.next] at hnext
        exact Or.inr (Or.inr hnext.symm)

/-- A TIMEOUT comes after a start. -/
theorem Inv.started_before (h : Inv r) {before rest : List TimerStep}
    (hlife : r.life t = before ++ .timeout :: rest) : .started ∈ before := by
  obtain ⟨phase, hafter, -⟩ := h.stage t
  rw [hlife, List.append_cons, TimerPhase.after_append] at hafter
  obtain ⟨middle, hmiddle, -⟩ := Option.bind_eq_some_iff.mp hafter
  exact TimerPhase.started_of_timeout (Or.inl rfl) hmiddle

/-- The steps of the worker that work through its tasks. -/
def Label.Working (l : Label) : Prop := l = .takeTasks ∨ l = .pop ∨ l = .feed

/-- The steps it takes to execute what is pending. -/
def rank (r : WorkerRun) : Nat :=
  3 * r.worker.tasks.length + 2 * r.worker.batch.length +
    if r.worker.taken = none then 0 else 1

theorem deliver_worker (e : Option (Nat × TimerEvent)) : (r.deliver e).worker = r.worker := by
  cases e with
  | none => rfl
  | some x =>
      obtain ⟨t, e⟩ := x
      cases e <;> rfl

theorem feed_shape {w w' : Worker} {e : Option (Nat × TimerEvent)} (h : w.feed = .ok (w', e)) :
    w'.tasks = w.tasks ∧ w'.batch = w.batch ∧ w'.taken = none := by
  unfold Worker.feed at h
  split at h
  · rename_i hnone
    obtain ⟨rfl, -⟩ : w = w' ∧ none = e := by simpa using h
    exact ⟨rfl, rfl, hnone⟩
  · obtain ⟨rfl, -⟩ : { w with taken := none } = w' ∧ none = e := by simpa using h
    exact ⟨rfl, rfl, rfl⟩
  · obtain ⟨_, -, h⟩ := bind_eq_ok_iff.mp h
    obtain ⟨⟨timer, e'⟩, -, h⟩ := bind_eq_ok_iff.mp h
    obtain ⟨rfl, -⟩ := Prod.mk.inj (Except.ok.inj h)
    exact ⟨rfl, rfl, rfl⟩
  · obtain ⟨⟨timer, e'⟩, -, h⟩ := bind_eq_ok_iff.mp h
    obtain ⟨rfl, -⟩ := Prod.mk.inj (Except.ok.inj h)
    exact ⟨rfl, rfl, rfl⟩

theorem rank_step {l : Label} (hl : l.Working) (hne : pending r.worker ≠ [])
    (h : system.step r l r') : rank r' < rank r := by
  obtain ⟨hen, hnext⟩ := h
  rcases hl with rfl | rfl | rfl
  · obtain ⟨hnone, hbatch⟩ := hen
    obtain rfl := Except.ok.inj hnext
    have htasks : r.worker.tasks ≠ [] := by
      rintro htasks
      exact hne (by simp [pending, hnone, hbatch, htasks, takenTask])
    have hpos := List.length_pos_iff.mpr htasks
    simp only [rank, Worker.takeTasks, hnone, hbatch, List.length_nil]
    omega
  · obtain ⟨hnone, hbatch⟩ := hen
    obtain rfl := Except.ok.inj hnext
    obtain ⟨task, batch, hcons⟩ := List.exists_cons_of_ne_nil hbatch
    cases task <;> simp [rank, Worker.pop, hcons, hnone, Worker.setTimer] <;> omega
  · obtain ⟨⟨worker, e⟩, hfeed, hnext⟩ := bind_eq_ok_iff.mp hnext
    obtain rfl := Except.ok.inj hnext
    obtain ⟨htasks, hbatch, hnone⟩ := feed_shape hfeed
    have htaken : r.worker.taken ≠ none := hen
    simp only [rank, deliver_worker, htasks, hbatch, hnone, if_true, if_neg htaken]
    omega

/-- The worker answers every stop when it goes on with its tasks, without regard to anything
else that happens. -/
theorem Inv.settles (h : Inv r) : system.Settles Label.Working
    (fun r' => ∀ t, (r'.life t).count .stopped = (r'.life t).count .stopRequested) r := by
  have hpending : ∀ s : WorkerRun, Inv s →
      (¬∀ t, (s.life t).count .stopped = (s.life t).count .stopRequested) →
        pending s.worker ≠ [] := by
    intro s hs hnot hnil
    apply hnot
    intro t
    have hcount := hs.count_stopped t
    rw [hnil] at hcount
    simpa [tasksOf] using hcount
  refine System.settles_of_rank (I := Inv) rank ?_ ?_ ?_ h
  · rintro s l s' hs - ⟨hen, hnext⟩
    obtain ⟨s₁, hnext₁, hs₁⟩ := inv_step hs hen
    obtain rfl := Except.ok.inj (hnext.symm.trans hnext₁)
    exact hs₁
  · intro s hs hnot
    have hne := hpending s hs hnot
    by_cases htaken : s.worker.taken = none
    · by_cases hbatch : s.worker.batch = []
      · exact ⟨.takeTasks, _, Or.inl rfl, ⟨htaken, hbatch⟩, rfl⟩
      · exact ⟨.pop, _, Or.inr (Or.inl rfl), ⟨htaken, hbatch⟩, rfl⟩
    · obtain ⟨s', hfeed, -⟩ := feed_spec hs htaken
      exact ⟨.feed, s', Or.inr (Or.inr rfl), htaken, hfeed⟩
  · intro s l s' hs hnot hl hstep
    exact rank_step hl (hpending s hs hnot) hstep

/-- In every run: no TIMEOUT comes after a stop or another TIMEOUT but for a timer that was
started in between, nor before the first start; every stop is answered by one STOPPED when
its task is executed, which will be; no task of a timer is queued twice; tasks are executed
in the order they were posted; and nothing aborts. -/
theorem timer_protocol (h : system.Reachable r) :
    (∀ t before between rest,
      r.life t = before ++ .stopRequested :: (between ++ .timeout :: rest) →
        .started ∈ between) ∧
      (∀ t before between rest, r.life t = before ++ .timeout :: (between ++ .timeout :: rest) →
        .started ∈ between) ∧
      (∀ t before rest, r.life t = before ++ .timeout :: rest → .started ∈ before) ∧
      (∀ t, (r.life t).count .stopped +
        (if .stopTask ∈ tasksOf t (pending r.worker) then 1 else 0) =
          (r.life t).count .stopRequested) ∧
      system.Settles Label.Working
        (fun r' => ∀ t, (r'.life t).count .stopped = (r'.life t).count .stopRequested) r ∧
      (∀ t k, (r.worker.batch ++ r.worker.tasks).count (.timer t k) ≤ 1) ∧
      (r.executed ++ pending r.worker).Sublist r.posted ∧
      ∀ l, r.Enabled l → ∃ r', r.next l = .ok r' := by
  have hinv := inv_reachable h
  refine ⟨?_, ?_, ?_, hinv.count_stopped, hinv.settles, ?_, hinv.order, ?_⟩
  · intro t before between rest hlife
    exact hinv.started_between (Or.inl rfl) hlife
  · intro t before between rest hlife
    exact hinv.started_between (Or.inr rfl) hlife
  · intro t before rest hlife
    exact hinv.started_before hlife
  · intro t k
    obtain ⟨phase, -, hstage⟩ := hinv.stage t
    calc (r.worker.batch ++ r.worker.tasks).count (.timer t k)
        ≤ (pending r.worker).count (.timer t k) := by
          exact List.Sublist.count_le _ (List.sublist_append_right _ _)
      _ = (tasksOf t (pending r.worker)).count k := count_tasksOf t k _
      _ ≤ 1 := hstage.count_le k
  · intro l hen
    obtain ⟨r', hnext, -⟩ := inv_step hinv hen
    exact ⟨r', hnext⟩

/-- A timer that is stopped while its timeout expires. -/
def stoppedLate : List Label :=
  [.start 0 10, .takeTasks, .pop, .feed, .expire 0, .stop 0, .feed, .takeTasks, .pop, .feed]

/-- A step that is enabled and does not abort. -/
def tryNext (r : WorkerRun) (l : Label) : Option WorkerRun := System.tryStep (r.Enabled l) (r.next l)

theorem timer_protocol_stoppedLate : ∃ r, system.Reachable r ∧
    r.life 0 = [.started, .stopRequested, .stopped] ∧
      (r.executed ++ pending r.worker).Sublist r.posted := by
  have hrun : (System.follow tryNext {} stoppedLate).any
      (fun r => decide (r.life 0 = [.started, .stopRequested, .stopped])) = true := by
    decide +kernel
  obtain ⟨r, hfollow, hlife⟩ := (Option.any_eq_true _ _).mp hrun
  have hreach := (System.Reachable.start (S := system) rfl).follow (fun _ _ _ => System.tryStep_eq_some)
    hfollow
  exact ⟨r, hreach, of_decide_eq_true hlife, (timer_protocol hreach).2.2.2.2.2.2.1⟩

end WorkerRun

end GridMq.Aio
