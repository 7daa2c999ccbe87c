import GridMq.Core.GlobalLocks

set_option autoImplicit false

/-!
# The order of the locks

A thread of the application takes the global lock first and one context after another
under it; only the worker, when it submits statistics, requests the global lock with
contexts held.  As long as these two do not meet, no threads wait for each other.
-/

namespace GridMq.Core.Locking

open GridMq.Library LockOp

/-- What a thread of the application may do. -/
def AppRule (held : List Mutex) : Op → Prop
  | lock .glock => held = []
  | lock (.ctx _) => held = [] ∨ held = [.glock]
  | unlock l => l ∈ held
  | act .join => held = [.glock]
  | act (.timeout _) => False
  | act _ => True

/-- What the worker may do: it holds the global context, and that of a socket, while it
submits statistics. -/
def WorkerRule (held : List Mutex) : Op → Prop
  | lock .glock => held = [.ctx .self] ∨ ∃ i, held = [.ctx (.sock i), .ctx .self]
  | lock (.ctx c) => held = [] ∨ (held = [.glock, .ctx .self] ∧ c ≠ .self) ∨
      ∃ i, held = [.ctx (.sock i), .ctx .self] ∧ c ≠ .sock i ∧ c ≠ .self
  | unlock l => l ∈ held
  | act (.timeout _) => held = [.ctx .self]
  | act _ => False

/-! ## The calls follow the rules -/

section Programs

variable {rule : List Mutex → Op → Prop} {held : List Mutex}

/-- Contexts entered one after another. -/
theorem enterEach_follows {cs : List Context}
    (hlock : ∀ c ∈ cs, rule held (lock (.ctx c)))
    (hunlock : ∀ c, rule (.ctx c :: held) (unlock (.ctx c))) :
    Follows rule held (enterEach cs) held := by
  apply Follows.flatMap
  intro c hc
  exact Follows.during (hlock c hc) (.nil _) (hunlock c)

theorem underGlock_follows (hlock : rule held (lock .glock))
    (hunlock : rule (.glock :: held) (unlock .glock)) : Follows rule held underGlock held :=
  Follows.during hlock (.nil _) hunlock

theorem enterEach_app (cs : List Context) (h : held = [] ∨ held = [.glock]) :
    Follows AppRule held (enterEach cs) held :=
  enterEach_follows (fun _ _ => h) fun _ => List.mem_cons_self

theorem underGlock_app : Follows AppRule [] underGlock [] :=
  underGlock_follows rfl List.mem_cons_self

theorem globalTerm_follows (last : Bool) :
    Follows AppRule [.glock] (globalTerm last) [.glock] := by
  cases last with
  | false => exact .nil _
  | true =>
      have hstop : Follows AppRule [.ctx .self, .glock] [act .stop] [.ctx .self, .glock] :=
        .cons trivial (.nil _)
      have hjoin : Follows AppRule [.glock] [act .join] [.glock] := .cons rfl (.nil _)
      exact (Follows.during (Or.inr rfl) hstop List.mem_cons_self).append hjoin

theorem apiCall_follows (entered : Option (List Context)) :
    Follows AppRule [] (apiCall entered) [] := by
  cases entered with
  | none => exact underGlock_app
  | some cs => exact underGlock_app.append ((enterEach_app cs (Or.inl rfl)).append underGlock_app)

theorem gridTerm_follows (entered : List Context) :
    Follows AppRule [] (gridTerm entered) [] :=
  Follows.during rfl (enterEach_app entered (Or.inr rfl)) List.mem_cons_self

theorem gridSocket_follows (init : Option (List Context)) (last : Bool) :
    Follows AppRule [] (gridSocket init last) [] := by
  apply Follows.during rfl _ List.mem_cons_self
  apply Follows.append _ (globalTerm_follows last)
  cases init with
  | none => exact .nil _
  | some cs => exact (enterEach_app cs (Or.inr rfl)).append (.cons trivial (.nil _))

theorem gridClose_follows (i : Nat) (found : Option (List Context × Bool)) :
    Follows AppRule [] (gridClose i found) [] := by
  cases found with
  | none => exact underGlock_app
  | some found =>
      obtain ⟨entered, last⟩ := found
      have hstop : Follows AppRule []
          (lock .glock :: (enterEach (.sock i :: entered) ++ [unlock .glock])) [] :=
        Follows.during rfl (enterEach_app _ (Or.inr rfl)) List.mem_cons_self
      have hterm : Follows AppRule []
          (act .semWait :: act .semWait :: enterEach [.sock i]) [] :=
        .cons trivial (.cons trivial (enterEach_app _ (Or.inl rfl)))
      have hfree : Follows AppRule [] (lock .glock :: (globalTerm last ++ [unlock .glock])) [] :=
        Follows.during rfl (globalTerm_follows last) List.mem_cons_self
      exact (hstop.append hterm).append hfree

theorem feed_follows (cs : List Context) : Follows WorkerRule [] (enterEach cs) [] :=
  enterEach_follows (fun _ _ => Or.inl rfl) fun _ => List.mem_cons_self

theorem statTimer_follows (found : Statistics) :
    Follows WorkerRule []
      [lock (.ctx .self), act (.timeout found), unlock (.ctx .self)] [] := by
  have htimeout : Follows WorkerRule [.ctx .self] [act (.timeout found)] [.ctx .self] :=
    .cons rfl (.nil _)
  exact Follows.during (Or.inl rfl) htimeout List.mem_cons_self

/-- A submission while the context of a socket is held that gets no event from it. -/
theorem submit_follows {stat i : Nat} {delivered : Option (List Nat)} (hstat : stat ≠ i)
    (hnot : ∀ js ∈ delivered, i ∉ js) :
    Follows WorkerRule [.ctx (.sock i), .ctx .self] (submit stat delivered)
      [.ctx (.sock i), .ctx .self] := by
  have hglock : Follows WorkerRule [.ctx (.sock i), .ctx .self] underGlock
      [.ctx (.sock i), .ctx .self] :=
    underGlock_follows (Or.inr ⟨i, rfl⟩) List.mem_cons_self
  cases delivered with
  | none => exact hglock
  | some js =>
      apply hglock.append
      apply Follows.append _ hglock
      apply enterEach_follows _ fun _ => List.mem_cons_self
      intro c hc
      refine Or.inr (Or.inr ⟨i, rfl, ?_, ?_⟩)
      · intro hci
        rcases List.mem_cons.mp hc with hc | hc
        · exact hstat (Context.sock.inj (hc.symm.trans hci))
        · obtain ⟨j, hj, hjc⟩ := List.mem_map.mp hc
          have hji := Context.sock.inj (hjc.trans hci)
          exact hnot js rfl (hji ▸ hj)
      · intro hself
        rcases List.mem_cons.mp hc with hc | hc
        · exact absurd (hc.symm.trans hself) (by simp)
        · obtain ⟨j, -, hjc⟩ := List.mem_map.mp hc
          exact absurd (hjc.trans hself) (by simp)

theorem submitStatistics_follows {stat : Option Nat} {found : Statistics}
    (h : GlobalLocks.NotToItself stat found) :
    Follows WorkerRule [.ctx .self] (submitStatistics stat found) [.ctx .self] := by
  have hglock : Follows WorkerRule [.ctx .self] underGlock [.ctx .self] :=
    underGlock_follows (Or.inl rfl) List.mem_cons_self
  apply Follows.flatMap
  intro slot hslot
  obtain ⟨i, sends⟩ := slot
  cases sends with
  | none => exact hglock
  | some sends =>
      by_cases hi : stat = some i
      · simp only [submitSlot, if_pos hi]
        exact hglock
      · have hsends : Follows WorkerRule [.ctx (.sock i), .ctx .self]
            (submitAll stat sends) [.ctx (.sock i), .ctx .self] := by
          cases stat with
          | none => exact .nil _
          | some stat =>
              apply Follows.flatMap
              intro delivered hdelivered
              apply submit_follows (fun heq => hi (congrArg some heq))
              exact h _ hslot hi sends rfl delivered hdelivered
        have hleave : Follows WorkerRule [.ctx (.sock i), .ctx .self]
            [unlock (.ctx (.sock i))] [.ctx .self] := by
          apply Follows.cons List.mem_cons_self
          rw [after, List.erase_cons_head]
          exact .nil _
        simp only [submitSlot, if_neg hi]
        apply Follows.cons (Or.inl rfl)
        apply Follows.cons (Or.inr (Or.inl ⟨rfl, by simp⟩))
        apply Follows.cons (List.mem_cons_of_mem _ List.mem_cons_self)
        exact hsends.append hleave

end Programs

/-! ## The invariant -/

namespace GlobalLocks

variable {stat : Option Nat} {s s' : GlobalLocks} {t u : Nat} {op : Op} {ops : List Op}

/-- The rule for a thread. -/
def ruleOf (t : Nat) : List Mutex → Op → Prop := if t = worker then WorkerRule else AppRule

theorem ruleOf_app (ht : t ≠ worker) : ruleOf t = AppRule := if_neg ht

/-- No thread of the application goes on to enter contexts under the global lock while
statistics are submitted. -/
def Undisturbed (s : GlobalLocks) : Prop :=
  s.Submitting → ∀ t, t ≠ worker → s.locks.owner .glock = some t →
    ¬EntersUnderGlock (s.locks.todo t)

structure Inv (s : GlobalLocks) : Prop where
  obeys : ∀ t, s.locks.Obeys (ruleOf t) t
  undisturbed : s.Undisturbed

theorem EntersUnderGlock.cons (h : EntersUnderGlock ops) (hop : op ≠ unlock .glock) :
    EntersUnderGlock (op :: ops) := by
  obtain ⟨op', hmem, h⟩ := h
  refine ⟨op', ?_, h⟩
  rw [List.takeWhile_cons_of_pos (by simpa using hop)]
  exact List.mem_cons_of_mem op hmem

theorem EntersUnderGlock.of_lock {c : Context} :
    EntersUnderGlock (lock (.ctx c) :: ops) := by
  refine ⟨lock (.ctx c), ?_, Or.inl ⟨c, rfl⟩⟩
  rw [List.takeWhile_cons_of_pos (by simp)]
  exact List.mem_cons_self

theorem EntersUnderGlock.of_join : EntersUnderGlock (act .join :: ops) := by
  refine ⟨act .join, ?_, Or.inr rfl⟩
  rw [List.takeWhile_cons_of_pos (by simp)]
  exact List.mem_cons_self

/-- A thread goes on to the rest of its program: it keeps the global lock, or takes it when
no statistics are being submitted. -/
theorem Undisturbed.step (h : s.Undisturbed) (htodo : s.locks.todo t = op :: ops)
    (htodo' : s'.locks.todo = Function.update s.locks.todo t ops)
    (howner : ∀ u, s'.locks.owner .glock = some u →
      (s.locks.owner .glock = some u ∧ op ≠ unlock .glock) ∨
      (u = t ∧ (t ≠ worker → EntersUnderGlock ops → ¬s.Submitting))) : s'.Undisturbed := by
  intro hsub u hu hown henters
  have hsub' : s.Submitting := by
    unfold Submitting at hsub ⊢
    rw [htodo', Function.update_apply] at hsub
    split at hsub
    · rename_i ht
      rw [ht, htodo]
      exact List.mem_cons_of_mem op hsub
    · exact hsub
  rw [htodo', Function.update_apply] at henters
  rcases howner u hown with ⟨hold, hop⟩ | ⟨hut, hgood⟩
  · split at henters
    · rename_i hut
      apply h hsub' u hu hold
      rw [hut, htodo]
      exact henters.cons hop
    · exact h hsub' u hu hold henters
  · rw [if_pos hut] at henters
    exact hgood (hut ▸ hu) henters hsub'

/-- A thread begins something. -/
theorem inv_begin (h : s.Inv) (hidle : s.locks.todo t = [])
    (hops : Follows (ruleOf t) [] ops []) (hsub : t = worker → lock .glock ∉ ops) :
    Inv { s with locks := s.locks.goOn t ops } := by
  obtain ⟨held, hholds, hfollows⟩ := h.obeys t
  rw [hidle] at hfollows
  cases hfollows
  refine ⟨?_, ?_⟩
  · intro u
    by_cases hut : u = t
    · rw [hut]
      exact hholds.goOn hops
    · exact (h.obeys u).goOn_other hut
  · intro hsub' u hu hown henters
    unfold Submitting at hsub'
    simp only [Locks.goOn, Function.update_apply] at hsub' henters hown
    split at hsub'
    · rename_i ht
      exact hsub ht.symm hsub'
    · split at henters
      · rename_i hut
        exact absurd ((hholds.owner .glock).mpr (hut ▸ hown)) List.not_mem_nil
      · exact h.undisturbed hsub' u hu hown henters

theorem not_mem_enterEach (cs : List Context) : lock .glock ∉ enterEach cs := by
  intro hmem
  obtain ⟨c, -, hc⟩ := List.mem_flatMap.mp hmem
  simp at hc

/-- What a thread does apart from locking. -/
theorem inv_act {d : Deed} (h : s.Inv) (htodo : s.locks.todo t = act d :: ops)
    (hlocks : s'.locks = s.locks.goOn t ops) : s'.Inv := by
  refine ⟨?_, ?_⟩
  · intro u
    rw [hlocks]
    by_cases hut : u = t
    · subst u
      obtain ⟨held, hholds, hfollows⟩ := h.obeys t
      rw [htodo] at hfollows
      exact hholds.goOn hfollows.tail
    · exact (h.obeys u).goOn_other hut
  · apply h.undisturbed.step htodo
    · rw [hlocks]
      rfl
    · intro u hu
      rw [hlocks] at hu
      exact Or.inl ⟨hu, by simp⟩

theorem inv_lock {l : Mutex} (h : s.Inv) (htodo : s.locks.todo t = lock l :: ops)
    (hfree : s.locks.owner l = none)
    (hgood : l = .glock → t ≠ worker → EntersUnderGlock ops → ¬s.Submitting) :
    Inv { s with locks := s.locks.take t l ops } := by
  refine ⟨?_, ?_⟩
  · intro u
    by_cases hut : u = t
    · subst u
      obtain ⟨held, hholds, hfollows⟩ := h.obeys t
      rw [htodo] at hfollows
      exact hholds.take hfree hfollows.tail
    · exact (h.obeys u).take_other hut hfree
  · apply h.undisturbed.step htodo rfl
    intro u hu
    simp only [Locks.take, Function.update_apply] at hu
    split at hu
    · rename_i hl
      exact Or.inr ⟨(Option.some.inj hu).symm, hgood hl.symm⟩
    · exact Or.inl ⟨hu, by simp⟩

theorem inv_unlock {l : Mutex} (h : s.Inv) (htodo : s.locks.todo t = unlock l :: ops) :
    Inv { s with locks := s.locks.release t l ops } := by
  obtain ⟨held, hholds, hfollows⟩ := h.obeys t
  rw [htodo] at hfollows
  have hmem : l ∈ held := by
    have hrule := hfollows.head
    unfold ruleOf at hrule
    split at hrule
    · exact hrule
    · exact hrule
  refine ⟨?_, ?_⟩
  · intro u
    by_cases hut : u = t
    · subst u
      exact hholds.release hfollows.tail
    · exact (h.obeys u).release_other hut ((hholds.owner l).mp hmem)
  · apply h.undisturbed.step htodo rfl
    intro u hu
    simp only [Locks.release, Function.update_apply] at hu
    split at hu
    · exact absurd hu (by simp)
    · rename_i hl
      refine Or.inl ⟨hu, ?_⟩
      intro hop
      exact hl (LockOp.unlock.inj hop).symm

/-- The statistics are submitted. -/
theorem inv_timeout {found : Statistics} (h : s.Inv)
    (htodo : s.locks.todo t = act (.timeout found) :: ops) (hclosing : ¬s.Closing)
    (hnot : NotToItself stat found) :
    Inv { s with locks := s.locks.goOn t (submitStatistics stat found ++ ops) } := by
  obtain ⟨held, hholds, hfollows⟩ := h.obeys t
  rw [htodo] at hfollows
  have hrule := hfollows.head
  have ht : t = worker := by
    by_contra ht
    rw [ruleOf_app ht] at hrule
    exact hrule
  subst t
  have hheld : held = [.ctx .self] := hrule
  subst held
  refine ⟨?_, ?_⟩
  · intro u
    by_cases hut : u = worker
    · subst u
      exact hholds.goOn ((submitStatistics_follows hnot).append hfollows.tail)
    · exact (h.obeys u).goOn_other hut
  · intro _ u hu hown henters
    simp only [Locks.goOn, Function.update_of_ne hu] at henters hown
    exact hclosing ⟨u, hown, henters⟩

theorem inv_goOn (h : s.Inv) (hgood : Apart stat s (.goOn t))
    (hstep : s.goOn stat t = some s') : s'.Inv := by
  unfold goOn at hstep
  unfold Apart at hgood
  simp only at hgood
  split at hstep
  · exact absurd hstep (by simp)
  · rename_i l ops htodo
    split at hstep
    · rename_i hfree
      rw [← Option.some.inj hstep]
      apply inv_lock h htodo hfree
      intro hl
      subst l
      rw [htodo] at hgood
      exact hgood
    · exact absurd hstep (by simp)
  · rename_i l ops htodo
    rw [← Option.some.inj hstep]
    exact inv_unlock h htodo
  · rename_i ops htodo
    rw [← Option.some.inj hstep]
    exact inv_act h htodo rfl
  · rename_i ops htodo
    rw [← Option.some.inj hstep]
    exact inv_act h htodo rfl
  · rename_i ops htodo
    split at hstep
    · rw [← Option.some.inj hstep]
      exact inv_act h htodo rfl
    · exact absurd hstep (by simp)
  · rename_i ops htodo
    rw [← Option.some.inj hstep]
    exact inv_act h htodo rfl
  · rename_i found ops htodo
    rw [← Option.some.inj hstep]
    rw [htodo] at hgood
    by_cases hstopped : s.stopped = true
    · rw [if_pos hstopped]
      exact inv_act h htodo rfl
    · rw [if_neg hstopped]
      obtain ⟨hclosing, hnot⟩ := hgood (by simpa using hstopped)
      exact inv_timeout h htodo hclosing hnot

theorem inv_call (h : s.Inv) (hops : Follows AppRule [] ops [])
    (hstep : s.begin t ops = some s') : s'.Inv := by
  unfold begin at hstep
  split at hstep
  · rename_i hen
    rw [← Option.some.inj hstep]
    apply inv_begin h hen.2
    · rw [ruleOf_app hen.1]
      exact hops
    · intro ht
      exact absurd ht hen.1
  · exact absurd hstep (by simp)

theorem inv_event (h : s.Inv) (hops : Follows WorkerRule [] ops [])
    (hsub : lock .glock ∉ ops) (hstep : s.beginEvent ops = some s') : s'.Inv := by
  unfold beginEvent at hstep
  split at hstep
  · rename_i hen
    rw [← Option.some.inj hstep]
    exact inv_begin h hen.2 hops fun _ => hsub
  · exact absurd hstep (by simp)

theorem inv_step {l : Label} (h : s.Inv) (hgood : Apart stat s l)
    (hstep : (system stat).step s l s') : s'.Inv := by
  cases l with
  | apiCall t entered => exact inv_call h (apiCall_follows entered) hstep
  | gridTerm t entered => exact inv_call h (gridTerm_follows entered) hstep
  | gridSocket t init last => exact inv_call h (gridSocket_follows init last) hstep
  | gridClose t i found => exact inv_call h (gridClose_follows i found) hstep
  | feed c delivered =>
      exact inv_event h (feed_follows _) (not_mem_enterEach _) hstep
  | statTimer found => exact inv_event h (statTimer_follows found) (by simp) hstep
  | goOn t => exact inv_goOn h hgood hstep

/-! ## No cycles -/

theorem todo_of_head (h : (s.locks.todo t).head? = some op) :
    ∃ ops, s.locks.todo t = op :: ops := by
  cases htodo : s.locks.todo t with
  | nil => simp [htodo] at h
  | cons op' ops =>
      rw [htodo] at h
      exact ⟨ops, by rw [Option.some.inj h]⟩

/-- What a thread is about to do agrees with the locks it holds. -/
theorem Inv.rule (h : s.Inv) (hhead : (s.locks.todo t).head? = some op) :
    ∃ held, s.locks.Holds t held ∧ ruleOf t held op := by
  obtain ⟨held, hholds, hfollows⟩ := h.obeys t
  obtain ⟨ops, htodo⟩ := todo_of_head hhead
  rw [htodo] at hfollows
  exact ⟨held, hholds, hfollows.head⟩

theorem submitting_of_head (h : (s.locks.todo worker).head? = some (lock .glock)) :
    s.Submitting := by
  obtain ⟨ops, htodo⟩ := todo_of_head h
  rw [Submitting, htodo]
  exact List.mem_cons_self

/-- Only the worker requests the global lock with a lock held. -/
theorem Inv.holds_nothing (h : s.Inv) (ht : t ≠ worker)
    (hhead : (s.locks.todo t).head? = some (lock .glock)) (l : Mutex) :
    s.locks.owner l ≠ some t := by
  obtain ⟨held, hholds, hrule⟩ := h.rule hhead
  rw [ruleOf_app ht] at hrule
  have hheld : held = [] := hrule
  subst held
  intro hown
  exact absurd ((hholds.owner l).mpr hown) List.not_mem_nil

/-- A thread of the application that waits with a lock held holds the global lock. -/
theorem Inv.holds_glock (h : s.Inv) (ht : t ≠ worker) (hwaits : s.Waits t u) {l : Mutex}
    (hown : s.locks.owner l = some t) : l = .glock ∧ EntersUnderGlock (s.locks.todo t) := by
  rcases hwaits with ⟨l', hhead, -⟩ | ⟨hhead, -⟩
  · obtain ⟨held, hholds, hrule⟩ := h.rule hhead
    rw [ruleOf_app ht] at hrule
    obtain ⟨ops, htodo⟩ := todo_of_head hhead
    have hmem := (hholds.owner l).mpr hown
    cases l' with
    | glock =>
        have hheld : held = [] := hrule
        rw [hheld] at hmem
        exact absurd hmem List.not_mem_nil
    | ctx c =>
        rcases (hrule : held = [] ∨ held = [.glock]) with hheld | hheld
        · rw [hheld] at hmem
          exact absurd hmem List.not_mem_nil
        · rw [hheld] at hmem
          refine ⟨List.mem_singleton.mp hmem, ?_⟩
          rw [htodo]
          exact EntersUnderGlock.of_lock
  · obtain ⟨held, hholds, hrule⟩ := h.rule hhead
    rw [ruleOf_app ht] at hrule
    obtain ⟨ops, htodo⟩ := todo_of_head hhead
    have hheld : held = [.glock] := hrule
    have hmem := (hholds.owner l).mpr hown
    rw [hheld] at hmem
    refine ⟨List.mem_singleton.mp hmem, ?_⟩
    rw [htodo]
    exact EntersUnderGlock.of_join

/-- The worker never waits for itself. -/
theorem Inv.not_waits_worker (h : s.Inv) : ¬s.Waits worker worker := by
  rintro (⟨l, hhead, hown⟩ | ⟨hhead, -⟩)
  · obtain ⟨held, hholds, hrule⟩ := h.rule hhead
    have hmem := (hholds.owner l).mpr hown
    cases l with
    | glock =>
        rcases (hrule : held = [.ctx .self] ∨ ∃ i, held = [.ctx (.sock i), .ctx .self]) with
          hheld | ⟨i, hheld⟩
        · rw [hheld] at hmem
          exact absurd hmem (by simp)
        · rw [hheld] at hmem
          exact absurd hmem (by simp)
    | ctx c =>
        rcases (hrule : held = [] ∨ (held = [.glock, .ctx .self] ∧ c ≠ .self) ∨
          ∃ i, held = [.ctx (.sock i), .ctx .self] ∧ c ≠ .sock i ∧ c ≠ .self) with
          hheld | ⟨hheld, hself⟩ | ⟨i, hheld, hi, hself⟩
        · rw [hheld] at hmem
          exact absurd hmem List.not_mem_nil
        · rw [hheld] at hmem
          exact absurd hmem (by simp [hself])
        · rw [hheld] at hmem
          exact absurd hmem (by simp [hi, hself])
  · obtain ⟨held, -, hrule⟩ := h.rule hhead
    exact hrule

/-- Threads that hold nothing come first, then the one that holds the global lock and then
the worker. -/
def rank (s : GlobalLocks) (t : Nat) : Nat :=
  if t = worker then 2 else if s.locks.owner .glock = some t then 1 else 0

theorem Inv.rank_lt {v : Nat} (h : s.Inv) (hwaits : s.Waits t u) (hnext : s.Waits u v) :
    s.rank t < s.rank u := by
  by_cases hu : u = worker
  · have ht : t ≠ worker := by
      intro ht
      rw [hu, ht] at hwaits
      exact h.not_waits_worker hwaits
    simp only [rank, if_pos hu, if_neg ht]
    split <;> omega
  · -- The thread holds the lock that is waited for, so this is the global lock.
    have hboth : (s.locks.todo t).head? = some (lock .glock) ∧
        s.locks.owner .glock = some u ∧ EntersUnderGlock (s.locks.todo u) := by
      rcases hwaits with ⟨l, hhead, hown⟩ | ⟨-, hworker, -⟩
      · obtain ⟨hl, henters⟩ := h.holds_glock hu hnext hown
        subst l
        exact ⟨hhead, hown, henters⟩
      · exact absurd hworker hu
    obtain ⟨hhead, hown, henters⟩ := hboth
    have ht : t ≠ worker := by
      intro ht
      rw [ht] at hhead
      exact h.undisturbed (submitting_of_head hhead) u hu hown henters
    simp only [rank, if_neg ht, if_neg hu, if_pos hown, if_neg (h.holds_nothing ht hhead .glock)]
    omega

theorem Inv.lockOrder (h : s.Inv) : s.LockOrder := by
  refine ⟨?_, ?_, no_cycle_of_rank s.rank fun _ _ _ => h.rank_lt⟩
  · intro t u c hhead hown hglock hnext
    have ht : t = worker := by
      by_contra ht
      exact h.holds_nothing ht hhead (.ctx c) hown
    rw [ht] at hhead hown
    by_cases hu : u = worker
    · rw [hu, hhead] at hnext
      exact absurd hnext (by simp)
    · obtain ⟨ops, htodo⟩ := todo_of_head hnext
      apply h.undisturbed (submitting_of_head hhead) u hu hglock
      rw [htodo]
      exact EntersUnderGlock.of_lock
  · intro t l hhead hown hneeded
    obtain ⟨held, hholds, hrule⟩ := h.rule hhead
    have ht : t ≠ worker := by
      intro ht
      rw [ht] at hrule
      exact hrule
    rw [ruleOf_app ht] at hrule
    have hheld : held = [.glock] := hrule
    have hmem := (hholds.owner l).mpr hown
    rw [hheld] at hmem
    have hl := List.mem_singleton.mp hmem
    rw [hl] at hneeded hown
    obtain ⟨ops, htodo⟩ := todo_of_head hhead
    apply h.undisturbed hneeded t ht hown
    rw [htodo]
    exact EntersUnderGlock.of_join

theorem Inv.init : Inv {} := by
  refine ⟨?_, ?_⟩
  · intro t
    refine ⟨[], ⟨?_, List.nodup_nil⟩, .nil _⟩
    intro l
    simp
  · intro hsub
    exact absurd hsub List.not_mem_nil

/-- No lock is requested out of order and no cycle of waiting threads is reached, in every
run in which nobody takes the global lock to enter contexts under it while statistics are
being submitted. -/
theorem lock_order (hs : ((system stat).restrict (Apart stat)).Reachable s) :
    s.LockOrder := by
  apply Inv.lockOrder
  apply hs.invariant (P := Inv)
  · intro s hs
    rw [show s = {} from hs]
    exact Inv.init
  · intro s l s' _ hinv hstep
    exact inv_step hinv hstep.1 hstep.2

/-! ## The statistics timer and a close -/

/-- The library is set up with the statistics socket 1, and the socket 0 is created. -/
def setUp : List Label :=
  .gridSocket 1 (some [.sock 1]) false :: List.replicate 5 (.goOn 1)

/-- One message is sent about the socket 0, which is closed afterwards. -/
def oneAfterAnother : List Label :=
  setUp ++ .statTimer [(0, some [some []])] :: List.replicate 13 (.goOn 0) ++
    .gridClose 1 0 (some ([], false)) :: List.replicate 10 (.goOn 1)

theorem lock_order_oneAfterAnother :
    ∃ s, ((system (some 1)).restrict (Apart (some 1))).Reachable s ∧
      s.locks.todo worker = [] ∧ s.locks.todo 1 = [] ∧ s.LockOrder := by
  have hrun : (System.follow
      (fun s l => if Apart (some 1) s l then s.next (some 1) l else none) {}
      oneAfterAnother).any (fun s => decide (s.locks.todo worker = [] ∧ s.locks.todo 1 = []))
        = true := by
    decide +kernel
  obtain ⟨s, hs, hdone⟩ := (Option.any_eq_true _ _).mp hrun
  have hreach : ((system (some 1)).restrict (Apart (some 1))).Reachable s := by
    apply System.Reachable.follow _ (.start rfl) hs
    intro s l s' h
    split at h
    · rename_i hgood
      exact ⟨hgood, h⟩
    · exact absurd h (by simp)
  obtain ⟨hworker, hcaller⟩ := of_decide_eq_true hdone
  exact ⟨s, hreach, hworker, hcaller, lock_order hreach⟩

/-- The socket is closed while its statistics are being submitted. -/
def atTheSameTime : List Label :=
  setUp ++ .statTimer [(0, some [some []])] :: List.replicate 5 (.goOn 0) ++
    [.gridClose 1 0 (some ([], false)), .goOn 1]

/-- The worker holds the context of the socket and waits for the global lock; the other
thread holds the global lock and waits for the context. -/
theorem not_lock_order :
    ¬∀ (stat : Option Nat) (s : GlobalLocks), (system stat).Reachable s → s.LockOrder := by
  intro hall
  have hrun : (System.follow (next (some 1)) {} atTheSameTime).any (fun s =>
      decide ((s.locks.todo worker).head? = some (lock .glock) ∧
        s.locks.owner .glock = some 1 ∧
        (s.locks.todo 1).head? = some (lock (.ctx (.sock 0))) ∧
        s.locks.owner (.ctx (.sock 0)) = some worker)) = true := by
    decide +kernel
  obtain ⟨s, hs, hstuck⟩ := (Option.any_eq_true _ _).mp hrun
  obtain ⟨hworker, hglock, hcaller, hctx⟩ := of_decide_eq_true hstuck
  have hreach : (system (some 1)).Reachable s :=
    System.Reachable.follow (fun _ _ _ h => h) (.start rfl) hs
  have hfirst : s.Waits worker 1 := Or.inl ⟨_, hworker, hglock⟩
  have hsecond : s.Waits 1 worker := Or.inl ⟨_, hcaller, hctx⟩
  exact (hall _ s hreach).2.2 worker (.tail (.single hfirst) hsecond)

end GlobalLocks

end GridMq.Core.Locking
