import GridMq.Aio.CtxThreads
import Mathlib.Data.List.Nodup

set_option autoImplicit false

/-!
# The order of events between contexts

Between two contexts events keep their order as long as no thread leaves a context with
events for another one to which earlier ones are still being delivered.  Two threads that
do so at a time may deliver them in either order.
-/

namespace GridMq.Aio

open GridMq.Library

namespace Contexts

variable {ctxOf : Nat → Nat} {s s' : Contexts} {t c d e : Nat} {data : EventData}

/-- What was raised in one context for another. -/
def between (ctxOf : Nat → Nat) (c d : Nat) (l : List Raising) : List Raising :=
  l.filter fun r => r.origin = c ∧ ctxOf r.data.fsm = d

@[simp] theorem between_nil : between ctxOf c d [] = [] := rfl

@[simp] theorem between_append (l l' : List Raising) :
    between ctxOf c d (l ++ l') = between ctxOf c d l ++ between ctxOf c d l' := by
  rw [between, List.filter_append]
  rfl

theorem between_cons (r : Raising) (l : List Raising) :
    between ctxOf c d (r :: l) = between ctxOf c d [r] ++ between ctxOf c d l :=
  between_append [r] l

theorem between_none {l : List Raising}
    (h : ∀ r ∈ l, r.origin = c → ctxOf r.data.fsm ≠ d) : between ctxOf c d l = [] := by
  apply List.filter_eq_nil_iff.mpr
  intro r hr hsel
  obtain ⟨horigin, hdst⟩ := of_decide_eq_true hsel
  exact h r hr horigin hdst

/-- Each of these was raised once, the processed ones are the first of them, and all were
processed when none of them is left. -/
def InOrder (ctxOf : Nat → Nat) (s : Contexts) (c d : Nat) : Prop :=
  (between ctxOf c d s.raised).Nodup ∧
  between ctxOf c d s.processed <+: between ctxOf c d s.raised ∧
  (s.eventsto c = [] → (∀ t, s.inFlight t = []) →
    between ctxOf c d s.processed = between ctxOf c d s.raised)

/-- Before the step, no event that was raised earlier in the context which is left is
still to be delivered to where one of its outgoing events goes; and no thread is about to
process an event that is raised. -/
def Ordered (ctxOf : Nat → Nat) (s : Contexts) : Label → Prop
  | .leave t => ∀ c from? rest, s.threads t = .inside c from? :: rest →
      ∀ e ∈ s.eventsto c, ∀ u, ∀ x ∈ s.inFlight u, (s.mark x).2 = c →
        ctxOf (s.data x).fsm ≠ ctxOf (s.data e).fsm
  | .raiseto _ e _ => ∀ t, .entering e ∉ s.threads t
  | _ => True

/-! ## The invariant -/

/-- Where an event is. -/
inductive Place where
  | queued (c : Nat)
  | taken (t : Nat)
  deriving DecidableEq

/-- Those of some events that were raised in one context for another. -/
def some? (ctxOf : Nat → Nat) (s : Contexts) (c d : Nat) (events : List Nat) : List Raising :=
  between ctxOf c d (events.map s.raising)

/-- Every event is in one place; for each pair of contexts one thread at most delivers. -/
structure Inv (ctxOf : Nat → Nat) (s : Contexts) (place : Nat → Option Place) : Prop where
  queued : ∀ c e, e ∈ s.eventsto c ↔ place e = some (.queued c)
  taken : ∀ t e, e ∈ s.inFlight t ↔ place e = some (.taken t)
  queuedOnce : ∀ c, (s.eventsto c).Nodup
  takenOnce : ∀ t, (s.inFlight t).Nodup
  listed : ∀ e, place e ≠ none → s.inqueue e = true ∨ ∃ t, .entering e ∈ s.threads t
  origin : ∀ c, ∀ e ∈ s.eventsto c, (s.mark e).2 = c
  numbers : s.raised.map Raising.number = List.range s.raised.length
  order : ∀ c d, ∃ t, (∀ u, u ≠ t → s.some? ctxOf c d (s.inFlight u) = []) ∧
    between ctxOf c d s.raised =
      between ctxOf c d s.processed ++ s.some? ctxOf c d (s.inFlight t) ++
        s.some? ctxOf c d (s.eventsto c)

theorem some?_congr {events : List Nat} (h : ∀ e ∈ events, s'.raising e = s.raising e) :
    s'.some? ctxOf c d events = s.some? ctxOf c d events := by
  rw [some?, List.map_congr_left h]
  rfl

theorem some?_append (events events' : List Nat) :
    s.some? ctxOf c d (events ++ events') =
      s.some? ctxOf c d events ++ s.some? ctxOf c d events' := by
  rw [some?, List.map_append, between_append]
  rfl

theorem some?_cons (e : Nat) (events : List Nat) :
    s.some? ctxOf c d (e :: events) =
      between ctxOf c d [s.raising e] ++ s.some? ctxOf c d events :=
  between_cons (s.raising e) (events.map s.raising)

theorem some?_none {events : List Nat}
    (h : ∀ e ∈ events, (s.mark e).2 = c → ctxOf (s.data e).fsm ≠ d) :
    s.some? ctxOf c d events = [] := by
  apply between_none
  intro r hr
  obtain ⟨e, he, rfl⟩ := List.mem_map.mp hr
  exact h e he

theorem inFlight_update (frames : List Frame)
    (h : s'.threads = Function.update s.threads t frames) (u : Nat) :
    s'.inFlight u = if u = t then frames.flatMap Frame.events else s.inFlight u := by
  unfold inFlight
  rw [h]
  split
  · rename_i hut
    rw [hut, Function.update_self]
  · rename_i hut
    rw [Function.update_of_ne hut]

/-- A thread that changes its frames but not the events in them. -/
theorem inFlight_same {frames : List Frame}
    (h : s'.threads = Function.update s.threads t frames)
    (hframes : frames.flatMap Frame.events = s.inFlight t) : s'.inFlight = s.inFlight := by
  funext u
  rw [inFlight_update frames h]
  split
  · rename_i hut
    rw [hut, hframes]
  · rfl

theorem inFlight_of_threads {frames : List Frame} (h : s.threads t = frames) :
    s.inFlight t = frames.flatMap Frame.events := by
  rw [inFlight, h]

/-- A thread that keeps the events it is about to process. -/
theorem entering_update {frames : List Frame}
    (h : s'.threads = Function.update s.threads t frames)
    (hframes : .entering e ∈ s.threads t → .entering e ∈ frames) {u : Nat}
    (hu : .entering e ∈ s.threads u) : ∃ u, .entering e ∈ s'.threads u := by
  rw [h]
  by_cases hut : u = t
  · subst u
    refine ⟨t, ?_⟩
    rw [Function.update_self]
    exact hframes hu
  · refine ⟨u, ?_⟩
    rw [Function.update_of_ne hut]
    exact hu

variable {place : Nat → Option Place}

theorem Inv.init : Inv ctxOf {} fun _ => none := by
  refine ⟨?_, ?_, ?_, ?_, ?_, ?_, ?_, ?_⟩
  · intro c e
    simp
  · intro t e
    simp [inFlight]
  · intro c
    exact List.nodup_nil
  · intro t
    exact List.nodup_nil
  · intro e h
    exact absurd rfl h
  · intro c e he
    exact absurd he List.not_mem_nil
  · rfl
  · intro c d
    exact ⟨0, fun _ _ => rfl, rfl⟩

/-- What has no effect on the events. -/
theorem Inv.same (s' : Contexts) (h : Inv ctxOf s place) (hdata : s'.data = s.data)
    (hmark : s'.mark = s.mark)
    (hqueue : s'.eventsto = s.eventsto) (hflight : s'.inFlight = s.inFlight)
    (hraised : s'.raised = s.raised) (hprocessed : s'.processed = s.processed)
    (hlisted : ∀ e, place e ≠ none → s'.inqueue e = true ∨ ∃ t, .entering e ∈ s'.threads t) :
    Inv ctxOf s' place := by
  have hsome : ∀ c d events, s'.some? ctxOf c d events = s.some? ctxOf c d events := by
    intro c d events
    apply some?_congr
    intro e _
    rw [raising, raising, hdata, hmark]
  refine ⟨?_, ?_, ?_, ?_, hlisted, ?_, ?_, ?_⟩
  · rw [hqueue]
    exact h.queued
  · rw [hflight]
    exact h.taken
  · rw [hqueue]
    exact h.queuedOnce
  · rw [hflight]
    exact h.takenOnce
  · rw [hqueue, hmark]
    exact h.origin
  · rw [hraised]
    exact h.numbers
  · intro c d
    rw [hflight, hqueue, hraised, hprocessed]
    simp only [hsome]
    exact h.order c d

theorem inv_enter (h : Inv ctxOf s place) : Inv ctxOf (s.enter t c) place := by
  apply Inv.same (s.enter t c) h rfl rfl rfl _ rfl rfl
  · intro e he
    rcases h.listed e he with hin | ⟨u, hu⟩
    · exact Or.inl hin
    · exact Or.inr (entering_update rfl (fun hmem => List.mem_cons_of_mem _ hmem) hu)
  · exact inFlight_same rfl rfl

theorem inv_pop_last {rest : List Frame} (h : Inv ctxOf s place)
    (htop : s.threads t = .delivering [] :: rest) :
    Inv ctxOf { s with threads := Function.update s.threads t rest } place := by
  apply Inv.same { s with threads := Function.update s.threads t rest } h rfl rfl rfl _ rfl rfl
  · intro e he
    rcases h.listed e he with hin | ⟨u, hu⟩
    · exact Or.inl hin
    · refine Or.inr (entering_update rfl ?_ hu)
      rw [htop]
      intro hmem
      exact (List.mem_cons.mp hmem).resolve_left (by simp)
  · apply inFlight_same rfl
    rw [inFlight_of_threads htop]
    rfl

theorem inv_pop {eventsto : List Nat} {rest : List Frame} (h : Inv ctxOf s place)
    (htop : s.threads t = .delivering (e :: eventsto) :: rest) :
    Inv ctxOf (s.pop t e eventsto rest) place := by
  apply Inv.same (s.pop t e eventsto rest) h rfl rfl rfl _ rfl rfl
  · intro x hx
    by_cases hxe : x = e
    · refine Or.inr ⟨t, ?_⟩
      subst x
      change _ ∈ Function.update s.threads t _ t
      rw [Function.update_self]
      exact List.mem_cons_self
    · rcases h.listed x hx with hin | ⟨u, hu⟩
      · refine Or.inl ?_
        change Function.update s.inqueue e false x = true
        rw [Function.update_of_ne hxe]
        exact hin
      · refine Or.inr (entering_update rfl ?_ hu)
        rw [htop]
        intro hmem
        have hrest := (List.mem_cons.mp hmem).resolve_left (by simp)
        exact List.mem_cons_of_mem _ (List.mem_cons_of_mem _ hrest)
  · apply inFlight_same rfl
    rw [inFlight_of_threads htop]
    rfl

theorem inv_raiseto (h : Inv ctxOf s place) (hfree : s.inqueue e = false)
    (hhand : ∀ t, .entering e ∉ s.threads t) :
    Inv ctxOf (s.raiseto c e data) (Function.update place e (some (.queued c))) := by
  have hnone : place e = none := by
    by_contra hplace
    rcases h.listed e hplace with hin | ⟨u, hu⟩
    · exact absurd (hfree.symm.trans hin) (by simp)
    · exact hhand u hu
  have hqueue : ∀ c', e ∉ s.eventsto c' := by
    intro c' he
    exact absurd (hnone.symm.trans ((h.queued c' e).mp he)) (by simp)
  have hflight : ∀ u, e ∉ s.inFlight u := by
    intro u he
    exact absurd (hnone.symm.trans ((h.taken u e).mp he)) (by simp)
  have hraising : ∀ x, x ≠ e → (s.raiseto c e data).raising x = s.raising x := by
    intro x hx
    simp only [raising, raiseto, Function.update_of_ne hx]
  have hnew : (s.raiseto c e data).raising e = ⟨s.raised.length, c, e, data⟩ := by
    simp only [raising, raiseto, Function.update_self]
  have hsome : ∀ c' d events, e ∉ events →
      (s.raiseto c e data).some? ctxOf c' d events = s.some? ctxOf c' d events := by
    intro c' d events he
    apply some?_congr
    intro x hx
    exact hraising x fun hxe => he (hxe ▸ hx)
  have heventsto : ∀ c', (s.raiseto c e data).eventsto c' =
      if c' = c then s.eventsto c ++ [e] else s.eventsto c' := by
    intro c'
    simp only [raiseto, Function.update_apply]
  refine ⟨?_, ?_, ?_, ?_, ?_, ?_, ?_, ?_⟩
  · intro c' x
    rw [heventsto]
    by_cases hxe : x = e
    · subst x
      rw [Function.update_self]
      split
      · rename_i hc
        simp [hc]
      · rename_i hc
        simp [hqueue c', Ne.symm hc]
    · rw [Function.update_of_ne hxe, ← h.queued c' x]
      split
      · rename_i hc
        simp [hc, hxe]
      · rfl
  · intro u x
    by_cases hxe : x = e
    · subst x
      rw [Function.update_self]
      exact ⟨fun hmem => absurd hmem (hflight u), fun heq => absurd heq (by simp)⟩
    · rw [Function.update_of_ne hxe]
      exact h.taken u x
  · intro c'
    rw [heventsto]
    split
    · rw [← List.concat_eq_append]
      exact List.Nodup.concat (hqueue c) (h.queuedOnce c)
    · exact h.queuedOnce c'
  · exact h.takenOnce
  · intro x hx
    by_cases hxe : x = e
    · refine Or.inl ?_
      subst x
      exact Function.update_self ..
    · rw [Function.update_of_ne hxe] at hx
      refine (h.listed x hx).imp_left ?_
      intro hin
      change Function.update s.inqueue e true x = true
      rw [Function.update_of_ne hxe]
      exact hin
  · intro c' x hx
    change (Function.update s.mark e (s.raised.length, c) x).2 = c'
    rw [heventsto] at hx
    by_cases hxe : x = e
    · subst x
      rw [Function.update_self]
      split at hx
      · rename_i hc
        exact hc.symm
      · exact absurd hx (hqueue c')
    · rw [Function.update_of_ne hxe]
      split at hx
      · rename_i hc
        have hold : x ∈ s.eventsto c := by simpa [hxe] using hx
        exact hc ▸ h.origin c x hold
      · exact h.origin c' x hx
  · change (s.raised ++ [_]).map Raising.number = List.range (s.raised ++ [_]).length
    rw [List.map_append, h.numbers, List.length_append, List.length_singleton, List.range_succ]
    rfl
  · intro c' d
    obtain ⟨u, hothers, horder⟩ := h.order c' d
    refine ⟨u, ?_, ?_⟩
    · intro v hv
      rw [show (s.raiseto c e data).inFlight v = s.inFlight v from rfl, hsome c' d _ (hflight v)]
      exact hothers v hv
    · rw [show (s.raiseto c e data).inFlight u = s.inFlight u from rfl, hsome c' d _ (hflight u),
        heventsto]
      change between ctxOf c' d (s.raised ++ [⟨s.raised.length, c, e, data⟩]) =
        between ctxOf c' d s.processed ++ _ ++ _
      rw [between_append, horder]
      split
      · rename_i hc
        subst c'
        rw [some?_append, hsome c d _ (hqueue c), some?_cons, hnew]
        simp [some?]
      · rename_i hc
        rw [hsome c' d _ (hqueue c'), between_none (l := [⟨s.raised.length, c, e, data⟩]),
          List.append_nil]
        intro r hr horigin
        rw [List.mem_singleton.mp hr] at horigin
        exact absurd horigin.symm hc

theorem inv_leave {from? : Option Nat} {rest : List Frame} (h : Inv ctxOf s place)
    (htop : s.threads t = .inside c from? :: rest) (hgood : Ordered ctxOf s (.leave t)) :
    ∃ place', Inv ctxOf (s.leave t c rest) place' := by
  have hown : s.inFlight t = rest.flatMap Frame.events := (inFlight_of_threads htop).trans rfl
  have hflight : ∀ u, (s.leave t c rest).inFlight u =
      if u = t then s.eventsto c ++ s.inFlight t else s.inFlight u := by
    intro u
    rw [inFlight_update (s := s) (t := t) _ rfl u]
    split
    · split
      · rename_i hempty
        rw [hempty, hown]
        rfl
      · rw [hown]
        rfl
    · rfl
  have heventsto : ∀ c', (s.leave t c rest).eventsto c' =
      if c' = c then [] else s.eventsto c' := by
    intro c'
    simp only [leave, Function.update_apply]
  have hsome : ∀ c' d events,
      (s.leave t c rest).some? ctxOf c' d events = s.some? ctxOf c' d events := by
    intro c' d events
    rfl
  refine ⟨fun x => if place x = some (.queued c) then some (.taken t) else place x,
    ?_, ?_, ?_, ?_, ?_, ?_, h.numbers, ?_⟩
  · intro c' x
    rw [heventsto]
    split
    · rename_i hc
      subst c'
      split
      · simp
      · rename_i hplace
        simp [hplace]
    · rename_i hc
      rw [h.queued c' x]
      split
      · rename_i hplace
        simp [hplace, Ne.symm hc]
      · rfl
  · intro u x
    rw [hflight]
    split
    · rename_i hu
      subst u
      rw [List.mem_append, h.queued c x, h.taken t x]
      split
      · rename_i hplace
        simp [hplace]
      · rename_i hplace
        simp [hplace]
    · rename_i hu
      rw [h.taken u x]
      split
      · rename_i hplace
        simp [hplace, Ne.symm hu]
      · rfl
  · intro c'
    rw [heventsto]
    split
    · exact List.nodup_nil
    · exact h.queuedOnce c'
  · intro u
    rw [hflight]
    split
    · rename_i hu
      refine List.Nodup.append (h.queuedOnce c) (h.takenOnce t) ?_
      intro x hx hx'
      exact absurd (((h.queued c x).mp hx).symm.trans ((h.taken t x).mp hx')) (by simp)
    · exact h.takenOnce u
  · intro x hx
    have hx' : place x ≠ none := by
      split at hx
      · rename_i hplace
        simp [hplace]
      · exact hx
    refine (h.listed x hx').imp_right ?_
    rintro ⟨u, hu⟩
    refine entering_update (t := t) rfl ?_ hu
    rw [htop]
    intro hmem
    have hrest := (List.mem_cons.mp hmem).resolve_left (by simp)
    split
    · exact hrest
    · exact List.mem_cons_of_mem _ hrest
  · intro c' x hx
    rw [heventsto] at hx
    split at hx
    · exact absurd hx List.not_mem_nil
    · exact h.origin c' x hx
  · intro c' d
    simp only [hsome]
    obtain ⟨u, hothers, horder⟩ := h.order c' d
    by_cases hbatch : s.some? ctxOf c' d (s.eventsto c) = []
    · -- Nothing that was detached is between these two contexts.
      have hsame : ∀ v, s.some? ctxOf c' d ((s.leave t c rest).inFlight v) =
          s.some? ctxOf c' d (s.inFlight v) := by
        intro v
        rw [hflight]
        split
        · rename_i hv
          rw [some?_append, hbatch, hv]
          rfl
        · rfl
      refine ⟨u, fun v hv => (hsame v).trans (hothers v hv), ?_⟩
      rw [hsame, heventsto]
      change between ctxOf c' d s.raised = between ctxOf c' d s.processed ++ _ ++ _
      rw [horder]
      split
      · rename_i hc
        rw [hc] at hbatch ⊢
        rw [hbatch]
        rfl
      · rfl
    · -- It is, so nothing was on its way.
      obtain ⟨e, he, horigin, hdst⟩ : ∃ e ∈ s.eventsto c, (s.mark e).2 = c' ∧
          ctxOf (s.data e).fsm = d := by
        by_contra hnot
        apply hbatch
        apply some?_none
        intro e he horigin hdst
        exact hnot ⟨e, he, horigin, hdst⟩
      have hc : c' = c := horigin.symm.trans (h.origin c e he)
      rw [hc] at horder ⊢
      have hnothing : ∀ v, s.some? ctxOf c d (s.inFlight v) = [] := by
        intro v
        apply some?_none
        intro x hx hxorigin
        rw [← hdst]
        exact hgood c from? rest htop e he v x hx hxorigin
      refine ⟨t, ?_, ?_⟩
      · intro v hv
        rw [hflight, if_neg hv]
        exact hnothing v
      · rw [hflight, if_pos rfl, heventsto, if_pos rfl, some?_append, hnothing t,
          List.append_nil]
        change between ctxOf c d s.raised = between ctxOf c d s.processed ++ _ ++ []
        rw [horder, hnothing u, List.append_nil, List.append_nil]

theorem inv_process {rest : List Frame} (h : Inv ctxOf s place)
    (htop : s.threads t = .entering e :: rest) :
    Inv ctxOf (process ctxOf s t e rest) (Function.update place e none) := by
  have hown : s.inFlight t = e :: rest.flatMap Frame.events :=
    (inFlight_of_threads htop).trans rfl
  have hplace : place e = some (.taken t) := (h.taken t e).mp (hown ▸ List.mem_cons_self)
  have honce := hown ▸ h.takenOnce t
  have hqueue : ∀ c, e ∉ s.eventsto c := by
    intro c he
    exact absurd (hplace.symm.trans ((h.queued c e).mp he)) (by simp)
  have hflight : ∀ u, (process ctxOf s t e rest).inFlight u =
      if u = t then rest.flatMap Frame.events else s.inFlight u := by
    intro u
    exact inFlight_update (.inside (ctxOf (s.data e).fsm) (some e) :: rest) rfl u
  have hnot : ∀ u, e ∉ (process ctxOf s t e rest).inFlight u := by
    intro u
    rw [hflight]
    split
    · exact (List.nodup_cons.mp honce).1
    · rename_i hu
      intro he
      have hboth := hplace.symm.trans ((h.taken u e).mp he)
      exact hu (Place.taken.inj (Option.some.inj hboth)).symm
  have hsome : ∀ c d events, e ∉ events →
      (process ctxOf s t e rest).some? ctxOf c d events = s.some? ctxOf c d events := by
    intro c d events he
    apply some?_congr
    intro x hx
    have hxe : x ≠ e := fun hxe => he (hxe ▸ hx)
    simp only [raising, process, Function.update_of_ne hxe]
  refine ⟨?_, ?_, h.queuedOnce, ?_, ?_, h.origin, h.numbers, ?_⟩
  · intro c x
    by_cases hxe : x = e
    · subst x
      rw [Function.update_self]
      exact ⟨fun he => absurd he (hqueue c), fun heq => absurd heq (by simp)⟩
    · rw [Function.update_of_ne hxe]
      exact h.queued c x
  · intro u x
    by_cases hxe : x = e
    · subst x
      rw [Function.update_self]
      exact ⟨fun he => absurd he (hnot u), fun heq => absurd heq (by simp)⟩
    · rw [Function.update_of_ne hxe, hflight, ← h.taken u x]
      split
      · rename_i hu
        rw [hu, hown, List.mem_cons]
        exact ⟨Or.inr, fun hmem => hmem.resolve_left hxe⟩
      · rfl
  · intro u
    rw [hflight]
    split
    · exact (List.nodup_cons.mp honce).2
    · exact h.takenOnce u
  · intro x hx
    by_cases hxe : x = e
    · subst x
      exact absurd (Function.update_self ..) hx
    · rw [Function.update_of_ne hxe] at hx
      refine (h.listed x hx).imp_right ?_
      rintro ⟨u, hu⟩
      refine entering_update (t := t) rfl ?_ hu
      rw [htop]
      intro hmem
      have hrest := (List.mem_cons.mp hmem).resolve_left fun heq => hxe (Frame.entering.inj heq)
      exact List.mem_cons_of_mem _ hrest
  · intro c d
    obtain ⟨u, hothers, horder⟩ := h.order c d
    have htaken : s.some? ctxOf c d (s.inFlight t) =
        between ctxOf c d [s.raising e] ++
          (process ctxOf s t e rest).some? ctxOf c d ((process ctxOf s t e rest).inFlight t) := by
      rw [hsome c d _ (hnot t), hflight, if_pos rfl, hown, some?_cons]
    have hsame : ∀ v, v ≠ t →
        (process ctxOf s t e rest).some? ctxOf c d ((process ctxOf s t e rest).inFlight v) =
          s.some? ctxOf c d (s.inFlight v) := by
      intro v hv
      rw [hsome c d _ (hnot v), hflight, if_neg hv]
    by_cases hut : u = t
    · subst u
      refine ⟨t, fun v hv => (hsame v hv).trans (hothers v hv), ?_⟩
      change between ctxOf c d s.raised =
        between ctxOf c d (s.processed ++ [s.raising e]) ++ _ ++
          (process ctxOf s t e rest).some? ctxOf c d (s.eventsto c)
      rw [hsome c d _ (hqueue c), horder, htaken, between_append, ← List.append_assoc]
    · -- The thread delivers nothing between these two contexts.
      have hempty := htaken.symm.trans (hothers t (Ne.symm hut))
      obtain ⟨hnone, hrest⟩ := List.append_eq_nil_iff.mp hempty
      refine ⟨u, ?_, ?_⟩
      · intro v hv
        by_cases hvt : v = t
        · subst v
          exact hrest
        · exact (hsame v hvt).trans (hothers v hv)
      · change between ctxOf c d s.raised =
          between ctxOf c d (s.processed ++ [s.raising e]) ++ _ ++
            (process ctxOf s t e rest).some? ctxOf c d (s.eventsto c)
        rw [hsome c d _ (hqueue c), hsame u hut, between_append, hnone, List.append_nil, horder]

/-- One step that meets the condition. -/
theorem inv_step {l : Label} (h : ∃ place, Inv ctxOf s place) (hgood : Ordered ctxOf s l)
    (hstep : (system ctxOf).step s l s') : ∃ place, Inv ctxOf s' place := by
  obtain ⟨place, h⟩ := h
  cases l with
  | enter t c =>
      obtain ⟨-, rfl⟩ := enter_cases hstep
      exact ⟨place, inv_enter h⟩
  | raiseto t e data =>
      obtain ⟨c, hfree, rfl⟩ := raiseto_cases hstep
      exact ⟨_, inv_raiseto h hfree hgood⟩
  | leave t =>
      obtain ⟨c, from?, rest, htop, rfl⟩ := leave_cases hstep
      exact inv_leave h htop hgood
  | pop t =>
      rcases pop_cases hstep with ⟨rest, htop, rfl⟩ | ⟨e, eventsto, rest, htop, rfl⟩
      · exact ⟨place, inv_pop_last h htop⟩
      · exact ⟨place, inv_pop h htop⟩
  | process t =>
      obtain ⟨e, rest, htop, rfl⟩ := process_cases hstep
      exact ⟨_, inv_process h htop⟩

theorem Inv.inOrder (h : Inv ctxOf s place) (c d : Nat) : InOrder ctxOf s c d := by
  obtain ⟨t, -, horder⟩ := h.order c d
  refine ⟨?_, ?_, ?_⟩
  · have hall : (s.raised.map Raising.number).Nodup := by
      rw [h.numbers]
      exact List.nodup_range
    exact (List.Nodup.of_map _ hall).filter _
  · rw [horder, List.append_assoc]
    exact List.prefix_append _ _
  · intro hqueue hflight
    rw [horder, hqueue, hflight t]
    simp [some?]

/-- Events raised in one context for another are processed once each and in the order of
their raising, in every run in which no context is left with events that could overtake
others and no event is raised again while a thread is about to process it. -/
theorem events_in_order (hs : ((system ctxOf).restrict (Ordered ctxOf)).Reachable s)
    (c d : Nat) : InOrder ctxOf s c d := by
  have hinv : ∃ place, Inv ctxOf s place := by
    apply hs.invariant (P := fun s => ∃ place, Inv ctxOf s place)
    · intro s hs
      rw [show s = {} from hs]
      exact ⟨_, Inv.init⟩
    · intro s l s' _ hP hstep
      exact inv_step hP hstep.1 hstep.2
  obtain ⟨place, hinv⟩ := hinv
  exact hinv.inOrder c d

/-! ## Two threads -/

/-- The thread that takes a step. -/
def Label.thread : Label → Nat
  | .enter t _ | .raiseto t _ _ | .leave t | .pop t | .process t => t

/-- Whether a step is taken by one of the first threads, and is in order as far as they are
concerned. -/
def orderedAmong (n : Nat) (ctxOf : Nat → Nat) (s : Contexts) (l : Label) : Bool :=
  decide (l.thread < n) && (List.range n).all fun u =>
    match l with
    | .leave t =>
        match s.threads t with
        | .inside c _ :: _ => (s.eventsto c).all fun e => (s.inFlight u).all fun x =>
            decide ((s.mark x).2 = c → ctxOf (s.data x).fsm ≠ ctxOf (s.data e).fsm)
        | _ => true
    | .raiseto _ e _ => decide (.entering e ∉ s.threads u)
    | _ => true

theorem ordered_of_among {n : Nat} {l : Label} (hidle : ∀ u, n ≤ u → s.threads u = [])
    (h : orderedAmong n ctxOf s l = true) : Ordered ctxOf s l := by
  have hall := List.all_eq_true.mp (Bool.and_eq_true_iff.mp h).2
  cases l with
  | leave t =>
      intro c from? rest htop e he u x hx
      by_cases hu : u < n
      · have hu := hall u (List.mem_range.mpr hu)
        simp only [htop] at hu
        exact of_decide_eq_true (List.all_eq_true.mp (List.all_eq_true.mp hu e he) x hx)
      · rw [inFlight, hidle u (Nat.le_of_not_lt hu)] at hx
        exact absurd hx List.not_mem_nil
  | raiseto t e data =>
      intro u
      by_cases hu : u < n
      · exact of_decide_eq_true (hall u (List.mem_range.mpr hu))
      · rw [hidle u (Nat.le_of_not_lt hu)]
        exact List.not_mem_nil
  | _ => trivial

/-- The other threads do nothing. -/
theorem idle_step {n u : Nat} {l : Label} (hidle : s.threads u = []) (hl : l.thread < n)
    (hu : n ≤ u) (hstep : (system ctxOf).step s l s') : s'.threads u = [] := by
  have hne : u ≠ l.thread := by omega
  rw [← hidle]
  cases l with
  | enter t c =>
      obtain ⟨-, rfl⟩ := enter_cases hstep
      exact Function.update_of_ne hne _ _
  | raiseto t e data =>
      obtain ⟨c, -, rfl⟩ := raiseto_cases hstep
      rfl
  | leave t =>
      obtain ⟨c, from?, rest, -, rfl⟩ := leave_cases hstep
      exact Function.update_of_ne hne _ _
  | pop t =>
      rcases pop_cases hstep with ⟨rest, -, rfl⟩ | ⟨e, eventsto, rest, -, rfl⟩
      · exact Function.update_of_ne hne _ _
      · exact Function.update_of_ne hne _ _
  | process t =>
      obtain ⟨e, rest, -, rfl⟩ := process_cases hstep
      exact Function.update_of_ne hne _ _

theorem reachable_among {n : Nat}
    (h : ((system ctxOf).restrict fun s l => orderedAmong n ctxOf s l = true).Reachable s) :
    ((system ctxOf).restrict (Ordered ctxOf)).Reachable s := by
  have hboth : ((system ctxOf).restrict (Ordered ctxOf)).Reachable s ∧
      ∀ u, n ≤ u → s.threads u = [] := by
    apply h.invariant (P := fun s => ((system ctxOf).restrict (Ordered ctxOf)).Reachable s ∧
      ∀ u, n ≤ u → s.threads u = [])
    · intro s hs
      exact ⟨.start hs, fun u _ => by rw [show s = {} from hs]⟩
    · rintro s l s' _ ⟨hreach, hidle⟩ ⟨hamong, hstep⟩
      have hl : l.thread < n := of_decide_eq_true (Bool.and_eq_true_iff.mp hamong).1
      exact ⟨hreach.step ⟨ordered_of_among hidle hamong, hstep⟩,
        fun u hu => idle_step (hidle u hu) hl hu hstep⟩
  exact hboth.1

/-- The first thread leaves the context 0 with two events for another one, and the second
thread with one for a third, while these are delivered. -/
def alternating : List Label :=
  [.enter 0 0, .raiseto 0 7 { fsm := 1, src := 27713, type := 3 },
    .raiseto 0 8 { fsm := 1, src := 27713, type := 4 }, .leave 0, .pop 0, .enter 1 0,
    .raiseto 1 9 { fsm := 2, src := 27713, type := 5 }, .leave 1, .process 0, .pop 1, .process 1,
    .leave 0, .pop 0, .process 0, .leave 1, .leave 0]

theorem events_in_order_alternating : ∃ s, ((system id).restrict (Ordered id)).Reachable s ∧
    (between id 0 1 s.processed).map (·.data.type) = [3, 4] ∧
    (between id 0 2 s.processed).map (·.data.type) = [5] ∧
    InOrder id s 0 1 ∧ InOrder id s 0 2 := by
  have hrun : (System.follow (fun s l => if orderedAmong 2 id s l then s.next id l else none) {}
      alternating).map (fun s => ((between id 0 1 s.processed).map (·.data.type),
        (between id 0 2 s.processed).map (·.data.type))) = some ([3, 4], [5]) := by
    decide +kernel
  obtain ⟨s, hs, heq⟩ := Option.map_eq_some_iff.mp hrun
  obtain ⟨hfirst, hsecond⟩ := Prod.mk.inj heq
  have hreach : ((system id).restrict (Ordered id)).Reachable s := by
    refine reachable_among (n := 2)
      (System.Reachable.follow (fun s l s' hnext => ?_) (.start rfl) hs)
    split at hnext
    · rename_i hamong
      exact ⟨hamong, hnext⟩
    · exact absurd hnext (by simp)
  exact ⟨s, hreach, hfirst, hsecond, events_in_order hreach 0 1, events_in_order hreach 0 2⟩

/-- Two threads raise an event each, and the second one delivers before the first, which
has released the context and not yet entered the other one. -/
def overtaking : List Label :=
  [.enter 0 0, .raiseto 0 7 { fsm := 1, src := 27713, type := 3 }, .leave 0, .pop 0,
    .enter 1 0, .raiseto 1 8 { fsm := 1, src := 27713, type := 4 }, .leave 1, .pop 1, .process 1]

theorem not_events_in_order :
    ¬∀ (ctxOf : Nat → Nat) (s : Contexts), (system ctxOf).Reachable s →
      ∀ c d, InOrder ctxOf s c d := by
  intro hall
  have hrun : (System.follow (next id) {} overtaking).any (fun s =>
      !decide (between id 0 1 s.processed <+: between id 0 1 s.raised)) = true := by
    decide +kernel
  obtain ⟨s, hs, hbad⟩ := (Option.any_eq_true _ _).mp hrun
  have hreach : (system id).Reachable s :=
    System.Reachable.follow (fun _ _ _ h => h) (.start rfl) hs
  have hbegins := (hall id s hreach 0 1).2.1
  simp [hbegins] at hbad

end Contexts

end GridMq.Aio
