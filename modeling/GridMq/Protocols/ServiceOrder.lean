import GridMq.Protocols.PriolistRuns

set_option autoImplicit false

/-!
# The order in which pipes are served

The pipes of a slot form a ring that begins at the slot's current pipe.  Every call makes
one turn of every ring: the call that uses a pipe serves the ring of the best priority, and
the others let pipes join or leave.
-/

namespace GridMq.Protocols

open GridMq.Library

/-- The pipes of a slot, from the current one on. -/
def PriolistSlot.ring (s : PriolistSlot) : List PriolistData :=
  match s.current with
  | none => []
  | some d => s.pipes.dropWhile (fun e => decide (e ≠ d)) ++
      s.pipes.takeWhile (fun e => decide (e ≠ d))

namespace PriolistSlot

variable {pre post pipes : List PriolistData} {d e : PriolistData}

/-- The ring of a list that is split at the current pipe. -/
theorem ring_split (hd : d ∉ pre) :
    PriolistSlot.ring ⟨pre ++ d :: post, some d⟩ = d :: post ++ pre := by
  have hall : ∀ e ∈ pre, decide (e ≠ d) = true := by
    intro e he
    simpa using fun h : e = d => hd (h ▸ he)
  simp only [ring]
  rw [List.dropWhile_append_of_pos hall, List.takeWhile_append_of_pos hall]
  simp

theorem nextItem_split (hd : d ∉ pre) : nextItem d (pre ++ d :: post) = post.head? := by
  induction pre with
  | nil => simp [nextItem]
  | cons e pre ih =>
      rw [List.cons_append, nextItem, if_neg (fun h => hd (by simp [h]))]
      exact ih fun h => hd (List.mem_cons_of_mem e h)

/-- The ring after the current pipe, when it goes to the back or is taken out. -/
theorem ring_next (hnd : (pre ++ d :: post).Nodup) :
    PriolistSlot.ring ⟨pre ++ d :: post,
        (nextItem d (pre ++ d :: post)).or (pre ++ d :: post).head?⟩ = post ++ pre ++ [d] ∧
      PriolistSlot.ring ⟨pre ++ post, (nextItem d (pre ++ d :: post)).or (pre ++ post).head?⟩ =
        post ++ pre := by
  have hd : d ∉ pre := fun h => (List.nodup_append.mp hnd).2.2 d h d (by simp) rfl
  rw [nextItem_split hd]
  cases post with
  | nil =>
      cases pre with
      | nil => simp [ring]
      | cons e pre => simp [ring]
  | cons e post =>
      have he : e ∉ pre ++ [d] := by
        intro h
        have hnd' : ((pre ++ [d]) ++ e :: post).Nodup := by simpa using hnd
        exact (List.nodup_append.mp hnd').2.2 e h e (by simp) rfl
      have hpre : e ∉ pre := fun h => he (List.mem_append_left _ h)
      simp only [List.head?_cons, Option.some_or]
      constructor
      · have := @ring_split (pre ++ [d]) post e he
        simpa using this
      · exact ring_split hpre

/-- A pipe that is not the current one is taken out of the list and of the ring. -/
theorem ring_erase (hnd : (pre ++ d :: post).Nodup) (hne : e ≠ d) :
    PriolistSlot.ring ⟨(pre ++ d :: post).erase e, some d⟩ = (d :: post ++ pre).erase e := by
  have hd : d ∉ pre := fun h => (List.nodup_append.mp hnd).2.2 d h d (by simp) rfl
  by_cases he : e ∈ pre
  · have hpost : e ∉ d :: post := fun h => (List.nodup_append.mp hnd).2.2 e he e h rfl
    rw [List.erase_append_left _ he, List.erase_append_right _ hpost,
      ring_split fun h => hd (List.mem_of_mem_erase h)]
  · rw [List.erase_append_right _ he, List.erase_cons_tail (by simpa using hne.symm),
      ring_split hd, List.cons_append, List.cons_append,
      List.erase_cons_tail (by simpa using hne.symm)]
    by_cases hpost : e ∈ post
    · rw [List.erase_append_left _ hpost]
    · rw [List.erase_append_right _ hpost, List.erase_of_not_mem hpost, List.erase_of_not_mem he]

/-- A pipe that is put behind the others joins the ring. -/
theorem ring_join (hd : d ∉ pre) :
    (PriolistSlot.ring ⟨pre ++ d :: post, some d⟩).Sublist
      (PriolistSlot.ring ⟨pre ++ d :: post ++ [e], some d⟩) := by
  have hassoc : pre ++ d :: post ++ [e] = pre ++ d :: (post ++ [e]) := by simp
  rw [hassoc, ring_split hd, ring_split hd]
  exact ((List.sublist_append_left post [e]).cons_cons d).append (List.Sublist.refl pre)

/-- The ring has the pipes of the list. -/
theorem mem_ring (s : PriolistSlot) (hnone : s.current = none → s.pipes = []) :
    ∀ e, e ∈ s.ring ↔ e ∈ s.pipes := by
  intro e
  obtain ⟨pipes, current⟩ := s
  cases current with
  | none =>
      obtain rfl : pipes = [] := hnone rfl
      rfl
  | some d =>
      simp only [ring]
      rw [List.mem_append, or_comm, ← List.mem_append, List.takeWhile_append_dropWhile]

theorem nodup_ring (s : PriolistSlot) (hnd : s.pipes.Nodup) : s.ring.Nodup := by
  obtain ⟨pipes, current⟩ := s
  cases current with
  | none => exact List.nodup_nil
  | some d =>
      simp only [ring]
      rw [List.nodup_append_comm, List.takeWhile_append_dropWhile]
      exact hnd

end PriolistSlot

namespace ListUse

open Priolist

variable {s s' : ListUse} {l : Label}

/-- The pipe of a slot that a call uses. -/
def servedIn (s : ListUse) (l : Label) (i : Nat) : Option PriolistData :=
  (s.served l).filter fun d => d.priority = i + 1

/-- A slot in use is split at its current pipe. -/
theorem Inv.split (h : Inv s) {i : Nat} {d : PriolistData}
    (hd : (s.list.slots i).current = some d) :
    ∃ pre post, s.list.slots i = ⟨pre ++ d :: post, some d⟩ ∧ (pre ++ d :: post).Nodup ∧
      d ∉ pre := by
  obtain ⟨pre, post, heq⟩ := List.append_of_mem (h.wf.slotSome i d hd)
  have hnd := h.wf.nodup i
  rw [heq] at hnd
  refine ⟨pre, post, ?_, hnd, fun hpre => (List.nodup_append.mp hnd).2.2 d hpre d (by simp) rfl⟩
  rw [← heq, ← hd]

theorem leaveEmpty_slots (self : Priolist) (c : Nat) : (self.leaveEmpty c).slots = self.slots :=
  rfl

theorem turn_refl (r : List PriolistData) : Turn r none r := .join (List.Sublist.refl r)

/-- A removed pipe leaves its ring. -/
theorem Inv.turn_rm (h : Inv s) (d : PriolistData) (i : Nat) :
    Turn (s.list.slots i).ring none ((s.list.rm d).slots i).ring := by
  by_cases hact : s.list.Active d
  · unfold Priolist.rm
    rw [if_pos hact]
    simp only
    by_cases hi : i = d.priority - 1
    · have hslot : s.list.slot d.priority = s.list.slots i := by rw [hi, slot]
      have hmem : d ∈ (s.list.slots i).pipes := hslot ▸ hact
      obtain ⟨e, hc⟩ := Option.ne_none_iff_exists'.mp fun hn =>
        List.ne_nil_of_mem hmem (h.wf.slotNone i hn)
      obtain ⟨pre, post, heq, hnd, hpre⟩ := h.split hc
      rw [hslot, heq]
      simp only
      by_cases hde : e = d
      · -- the current pipe is taken out
        subst hde
        have herase : (pre ++ e :: post).erase e = pre ++ post := by
          rw [List.erase_append_right _ hpre, List.erase_cons_head]
        have hturn := @Turn.leave _ _ (e :: post ++ pre) e
        rw [List.cons_append, List.erase_cons_head] at hturn
        rw [if_neg (by simp), PriolistSlot.ring_split hpre, herase]
        split
        · rw [slots_setSlot, if_pos hi, (PriolistSlot.ring_next hnd).2]
          exact hturn
        · rw [leaveEmpty_slots, slots_setSlot, if_pos hi, (PriolistSlot.ring_next hnd).2]
          exact hturn
      · rw [if_pos (by simpa using hde), slots_setSlot, if_pos hi,
          PriolistSlot.ring_erase hnd (Ne.symm hde), PriolistSlot.ring_split hpre]
        exact .leave d
    · split
      · rw [slots_setSlot, if_neg hi]
        exact turn_refl _
      · split
        · rw [slots_setSlot, if_neg hi]
          exact turn_refl _
        · rw [leaveEmpty_slots, slots_setSlot, if_neg hi]
          exact turn_refl _
  · rw [Priolist.rm, if_neg hact]
    exact turn_refl _

/-- An activated pipe joins its ring. -/
theorem Inv.turn_activate (h : Inv s) {d : PriolistData} {list : Priolist}
    (hcall : s.list.activate d = .ok list) (i : Nat) :
    Turn (s.list.slots i).ring none (list.slots i).ring := by
  obtain ⟨-, -, hcall⟩ := bind_eq_ok_iff.mp hcall
  by_cases hused : (s.list.slot d.priority).pipes ≠ []
  · simp only [if_pos hused] at hcall
    obtain rfl := Except.ok.inj hcall
    rw [slots_setSlot]
    split
    · rename_i hi
      have hslot : s.list.slot d.priority = s.list.slots i := by rw [hi, slot]
      rw [hslot] at hused ⊢
      obtain ⟨e, hc⟩ := Option.ne_none_iff_exists'.mp fun hn => hused (h.wf.slotNone i hn)
      obtain ⟨pre, post, heq, -, hpre⟩ := h.split hc
      rw [heq]
      exact .join (PriolistSlot.ring_join hpre)
    · exact turn_refl _
  · simp only [if_neg hused] at hcall
    have hslots : list.slots = (s.list.setSlot d.priority
        { pipes := [d], current := some d }).slots := by
      split at hcall
      · obtain rfl := Except.ok.inj hcall
        rfl
      · split at hcall
        · obtain rfl := Except.ok.inj hcall
          rfl
        · obtain rfl := Except.ok.inj hcall
          rfl
    rw [hslots, slots_setSlot]
    split
    · rename_i hi
      have hempty : (s.list.slots i).ring = [] := by
        refine List.eq_nil_iff_forall_not_mem.mpr fun e he => ?_
        rw [PriolistSlot.mem_ring _ (h.wf.slotNone i), hi] at he
        rw [slot, not_not] at hused
        rw [hused] at he
        exact List.not_mem_nil he
      rw [hempty]
      exact .join (List.nil_sublist _)
    · exact turn_refl _

/-- The pipe that is used is served by its ring. -/
theorem Inv.turn_advance (h : Inv s) {d : PriolistData} {list : Priolist} {release : Bool}
    (hget : s.list.getpipe = .ok (some d)) (hcall : s.list.advance release = .ok list) (i : Nat) :
    Turn (s.list.slots i).ring (if d.priority = i + 1 then some d else none)
      (list.slots i).ring := by
  rcases getpipe_spec h.wf with ⟨hnone, -⟩ | ⟨c, d', hc, hd, hsome, -⟩
  · rw [hnone] at hget
    exact absurd hget (by simp)
  · obtain rfl : d' = d := by
      rw [hsome] at hget
      simpa using hget
    obtain ⟨h1, -, -⟩ := h.wf.currentSome c hc
    have hprio := (h.wf.range _ d' (h.wf.slotSome _ _ hd)).1
    obtain ⟨pre, post, heq, hnd, hpre⟩ := h.split hd
    have hslot : s.list.slot c = ⟨pre ++ d' :: post, some d'⟩ := heq
    simp only [advance, hc, hslot, Except.ok.injEq] at hcall
    obtain rfl := hcall
    rw [leaveEmpty_slots, slots_setSlot]
    by_cases hi : i = c - 1
    · rw [if_pos (by omega), if_pos hi, hi, heq, PriolistSlot.ring_split hpre]
      cases release with
      | true =>
          have herase : (pre ++ d' :: post).erase d' = pre ++ post := by
            rw [List.erase_append_right _ hpre, List.erase_cons_head]
          simp only [if_true, herase]
          rw [(PriolistSlot.ring_next hnd).2]
          exact .release
      | false =>
          simp only [Bool.false_eq_true, if_false]
          rw [(PriolistSlot.ring_next hnd).1]
          exact .stay
    · rw [if_neg (by omega), if_neg hi]
      exact turn_refl _

theorem used_list (list : Priolist) (pipe : Option PriolistData) (release : Bool) :
    (s.used list pipe release).list = list := by
  cases pipe with
  | none => rfl
  | some d => cases release <;> rfl

theorem served_getpipe {o : Option PriolistData} (h : s.list.getpipe = .ok o) :
    s.list.getpipe.toOption.join = o := by
  rw [h]
  rfl

/-- A call that uses a pipe if there is one. -/
theorem Inv.turn_serve (h : Inv s) {list : Priolist} {pipe : Option PriolistData} {release : Bool}
    (hcall : s.list.serve release = .ok (list, pipe)) (i : Nat) :
    Turn (s.list.slots i).ring
      (s.list.getpipe.toOption.join.filter fun d => d.priority = i + 1) (list.slots i).ring := by
  obtain ⟨o, hget, hcall⟩ := bind_eq_ok_iff.mp hcall
  rw [served_getpipe hget]
  cases o with
  | none =>
      obtain ⟨rfl, -⟩ := Prod.mk.inj (Except.ok.inj hcall)
      exact turn_refl _
  | some d =>
      obtain ⟨self, hadvance, hcall⟩ := bind_eq_ok_iff.mp hcall
      obtain ⟨rfl, -⟩ := Prod.mk.inj (Except.ok.inj hcall)
      have hturn := h.turn_advance hget hadvance i
      by_cases hprio : d.priority = i + 1
      · rw [if_pos hprio] at hturn
        simpa [Option.filter, hprio] using hturn
      · rw [if_neg hprio] at hturn
        simpa [Option.filter, hprio] using hturn

/-- Every call makes one turn of every ring. -/
theorem Inv.turn (h : Inv s) (hstep : system.step s l s') (i : Nat) :
    Turn (s.list.slots i).ring (s.servedIn l i) (s'.list.slots i).ring := by
  obtain ⟨hen, hnext⟩ := hstep
  cases l with
  | add p priority =>
      obtain rfl := Except.ok.inj hnext
      exact turn_refl _
  | rm p =>
      obtain ⟨d, -, hnext⟩ := bind_eq_ok_iff.mp hnext
      obtain rfl := Except.ok.inj hnext
      exact h.turn_rm d i
  | activate p =>
      obtain ⟨d, -, hnext⟩ := bind_eq_ok_iff.mp hnext
      obtain ⟨list, hcall, hnext⟩ := bind_eq_ok_iff.mp hnext
      obtain rfl := Except.ok.inj hnext
      exact h.turn_activate hcall i
  | advance release =>
      obtain ⟨pipe, hget, hnext⟩ := bind_eq_ok_iff.mp hnext
      obtain ⟨list, hcall, hnext⟩ := bind_eq_ok_iff.mp hnext
      obtain rfl := Except.ok.inj hnext
      rw [used_list]
      cases pipe with
      | none =>
          obtain ⟨d, hd⟩ := h.wf.isActive_iff.mp hen
          rcases getpipe_spec h.wf with ⟨-, -, hnone⟩ | ⟨c, d', -, -, hsome, -⟩
          · exact absurd hd (hnone d)
          · rw [hsome] at hget
            exact absurd hget (by simp)
      | some d =>
          refine @Inv.turn_serve _ h _ (some d) release ?_ i
          rw [Priolist.serve, hget, ok_bind]
          simp only [hcall, ok_bind, pure_eq_ok]
  | lbSend release | fqRecv release =>
      obtain ⟨⟨list, pipe⟩, hcall, hnext⟩ := bind_eq_ok_iff.mp hnext
      obtain rfl := Except.ok.inj hnext
      rw [used_list]
      exact h.turn_serve hcall i

/-! ## Whole runs -/

/-- A pipe that is used is the one that the list names, and no active pipe has a better
priority. -/
theorem Inv.served_best (h : Inv s) {d : PriolistData} (hserved : s.served l = some d) :
    ∀ e, s.list.Active e → d.priority ≤ e.priority := by
  have hget : s.list.getpipe.toOption.join = some d := by
    cases l with
    | add p priority => exact absurd hserved (by simp [served])
    | rm p => exact absurd hserved (by simp [served])
    | activate p => exact absurd hserved (by simp [served])
    | advance release => exact hserved
    | lbSend release => exact hserved
    | fqRecv release => exact hserved
  intro e he
  rcases getpipe_spec h.wf with ⟨hnone, -⟩ | ⟨c, d', hc, hd, hsome, -⟩
  · rw [served_getpipe hnone] at hget
    exact absurd hget (by simp)
  · rw [served_getpipe hsome] at hget
    obtain rfl := Option.some.inj hget
    obtain ⟨h1, -, hbefore⟩ := h.wf.currentSome c hc
    have hprio := (h.wf.range _ d' (h.wf.slotSome _ _ hd)).1
    by_contra hlt
    have hempty := hbefore (e.priority - 1) (by
      have := (h.wf.active_range he).1
      omega)
    rw [Active, slot, hempty] at he
    exact List.not_mem_nil he

/-- The turns of one ring along the steps of a run. -/
theorem Inv.turns (h : Inv s) {steps : List (ListUse × Label)} (hpath : system.Path s steps s')
    {P : ListUse → Prop} (hP : ∀ t ∈ steps, P t.1) (hend : P s') (i : Nat) :
    Turns (fun r => ∃ s, Inv s ∧ P s ∧ r = (s.list.slots i).ring) (s.list.slots i).ring
      (steps.map fun t => t.1.servedIn t.2 i) (s'.list.slots i).ring := by
  induction hpath with
  | nil s => exact .nil ⟨s, h, hend, rfl⟩
  | @cons s s₁ s' l steps hstep hrest ih =>
      obtain ⟨s₂, hnext, hinv⟩ := next_spec h hstep.1
      obtain rfl := Except.ok.inj (hstep.2.symm.trans hnext)
      exact .cons ⟨s, h, hP (s, l) (by simp), rfl⟩ (h.turn hstep i)
        (ih hinv (fun t ht => hP t (List.mem_cons_of_mem _ ht)) hend)

/-- A pipe that is used is used in its own slot. -/
theorem servedIn_eq_some {d : PriolistData} {i : Nat} (hd : d.priority = i + 1) :
    s.servedIn l i = some d ↔ s.served l = some d := by
  simp only [servedIn, Option.filter_eq_some_iff, decide_eq_true_eq]
  exact and_iff_left hd

/-- In every run, a pipe is used only when no active pipe has a better priority; and between
two uses of a pipe `x` with no other use of it in between, another pipe `y` of the same
priority is used exactly once, if both stay active. -/
theorem served_in_turn {s₀ : ListUse} (h : system.Reachable s₀) :
    (∀ l d, s₀.served l = some d → ∀ e, s₀.list.Active e → d.priority ≤ e.priority) ∧
    ∀ (l₀ l₂ : Label) (s₁ s₂ s₃ : ListUse) (mid : List (ListUse × Label)) (x y : PriolistData),
      system.step s₀ l₀ s₁ → system.Path s₁ mid s₂ → system.step s₂ l₂ s₃ →
      s₀.served l₀ = some x → s₂.served l₂ = some x →
      (∀ t ∈ mid, t.1.served t.2 ≠ some x) →
      (∀ t ∈ mid ++ [(s₂, l₂)], t.1.list.Active x ∧ t.1.list.Active y) →
      y ≠ x → y.priority = x.priority →
      mid.countP (fun t => t.1.served t.2 == some y) = 1 := by
  have hinv := inv_reachable h
  refine ⟨fun l d hserved => hinv.served_best hserved, ?_⟩
  intro l₀ l₂ s₁ s₂ s₃ mid x y hfirst hmid hlast hx₀ hx₂ hbetween hstay hne hprio
  have h₁ := h.step hfirst
  have hinv₁ := inv_reachable h₁
  have hinv₂ := inv_reachable (h₁.path hmid)
  have hxact := (hstay (s₂, l₂) (by simp)).1
  have hx := (hinv₂.wf.active_range hxact).1
  have hslot : x.priority = (x.priority - 1) + 1 := by omega
  have hslot' : y.priority = (x.priority - 1) + 1 := by omega
  generalize x.priority - 1 = i at hslot hslot'
  have hturns := hinv₁.turns hmid
    (P := fun s => s.list.Active x ∧ s.list.Active y)
    (fun t ht => hstay t (List.mem_append_left _ ht)) (hstay (s₂, l₂) (by simp)) i
  have hturn₀ := hinv.turn hfirst i
  have hturn₂ := hinv₂.turn hlast i
  rw [(servedIn_eq_some hslot).mpr hx₀] at hturn₀
  rw [(servedIn_eq_some hslot).mpr hx₂] at hturn₂
  have hmem : ∀ r, (∃ s, Inv s ∧ (s.list.Active x ∧ s.list.Active y) ∧
      r = (s.list.slots i).ring) → r.Nodup ∧ x ∈ r ∧ y ∈ r := by
    rintro r ⟨s, hs, ⟨hxs, hys⟩, rfl⟩
    have hring := PriolistSlot.mem_ring (s.list.slots i) (hs.wf.slotNone i)
    rw [Active, slot, hslot, Nat.add_sub_cancel] at hxs
    rw [Active, slot, hslot', Nat.add_sub_cancel] at hys
    exact ⟨PriolistSlot.nodup_ring _ (hs.wf.nodup i), (hring x).mpr hxs, (hring y).mpr hys⟩
  have hcount := Turns.fair (PriolistSlot.nodup_ring _ (hinv.wf.nodup i)) hturn₀ hturns hturn₂
    hmem ⟨s₂, hinv₂, hstay (s₂, l₂) (by simp), rfl⟩ hne.symm (by
      intro hin
      obtain ⟨t, ht, hserved⟩ := List.mem_map.mp hin
      exact hbetween t ht ((servedIn_eq_some hslot).mp hserved))
  rw [List.count, List.countP_map] at hcount
  rw [← hcount]
  refine List.countP_congr ?_
  intro t _
  simp only [Function.comp_apply, beq_iff_eq]
  exact (servedIn_eq_some hslot').symm

/-- Two pipes of priority 8 and one of priority 9, all active, and then three sends. -/
def threeSends : Option (ListUse × ListUse × ListUse × ListUse) := do
  let s₀ ← System.follow tryNext {} [.add 0 Core.defaultPriority, .add 1 Core.defaultPriority,
    .add 2 ⟨9, by decide⟩, .activate 2, .activate 0, .activate 1]
  let s₁ ← tryNext s₀ (.lbSend false)
  let s₂ ← tryNext s₁ (.lbSend false)
  let s₃ ← tryNext s₂ (.lbSend false)
  return (s₀, s₁, s₂, s₃)

/-- The two pipes of the better priority are used in turn. -/
theorem served_in_turn_two : ∃ s₀ s₁ s₂ : ListUse, system.Reachable s₀ ∧ s₀.served (.lbSend false) =
    some ⟨0, 8⟩ ∧ system.step s₀ (.lbSend false) s₁ ∧
      s₂.served (.lbSend false) = some ⟨0, 8⟩ ∧
      [(s₁, Label.lbSend false)].countP (fun t => t.1.served t.2 == some ⟨1, 8⟩) = 1 := by
  have hrun : threeSends.any (fun r => decide (r.1.served (.lbSend false) = some ⟨0, 8⟩ ∧
      r.2.1.served (.lbSend false) ≠ some ⟨0, 8⟩ ∧
      r.2.2.1.served (.lbSend false) = some ⟨0, 8⟩ ∧
      (r.2.1.list.Active ⟨0, 8⟩ ∧ r.2.1.list.Active ⟨1, 8⟩) ∧
      r.2.2.1.list.Active ⟨0, 8⟩ ∧ r.2.2.1.list.Active ⟨1, 8⟩)) = true := by
    decide +kernel
  obtain ⟨⟨s₀, s₁, s₂, s₃⟩, hsends, hfacts⟩ := (Option.any_eq_true _ _).mp hrun
  obtain ⟨hx₀, hx₁, hx₂, hact₁, hact₂⟩ := of_decide_eq_true hfacts
  unfold threeSends at hsends
  obtain ⟨_, hfollow, hsends⟩ := Option.bind_eq_some_iff.mp hsends
  obtain ⟨_, h₁, hsends⟩ := Option.bind_eq_some_iff.mp hsends
  obtain ⟨_, h₂, hsends⟩ := Option.bind_eq_some_iff.mp hsends
  obtain ⟨_, h₃, hsends⟩ := Option.bind_eq_some_iff.mp hsends
  simp only [Option.pure_def, Option.some.injEq, Prod.mk.injEq] at hsends
  obtain ⟨rfl, rfl, rfl, rfl⟩ := hsends
  have hreach := (System.Reachable.start (S := system) rfl).follow
    (fun _ _ _ => System.tryStep_eq_some) hfollow
  have hfirst := System.tryStep_eq_some h₁
  refine ⟨_, _, _, hreach, hx₀, hfirst, hx₂, ?_⟩
  refine (served_in_turn hreach).2 (.lbSend false) (.lbSend false) _ _ _ _ ⟨0, 8⟩ ⟨1, 8⟩ hfirst
    (.cons (System.tryStep_eq_some h₂) (.nil _)) (System.tryStep_eq_some h₃) hx₀ hx₂ ?_ ?_
    (by decide) rfl
  · intro t ht
    obtain rfl := List.mem_singleton.mp ht
    exact hx₁
  · intro t ht
    simp only [List.singleton_append, List.mem_cons, List.not_mem_nil, or_false] at ht
    rcases ht with rfl | rfl
    · exact hact₁
    · exact hact₂

end ListUse

end GridMq.Protocols
