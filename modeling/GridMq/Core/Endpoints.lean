import GridMq.Core.Sock
import Mathlib.Data.List.Nodup

set_option autoImplicit false

/-!
# The endpoints of a socket

How the two lists of endpoints and the queue of a socket fit together: what each endpoint
has been asked and has reported shows in the events about it that are queued.
-/

namespace GridMq.Core.Sock

open GridMq.Aio

/-- An event about an endpoint. -/
def about (eid : Nat) : SockEvent → Bool
  | .epAction e => e = eid
  | .epStopped e => e = eid
  | .pipe e _ _ => e = eid
  | .stopped => false

/-! ## Endpoints and their events -/

/-- Only pipes have raised events. -/
def PipesOnly (events : List SockEvent) : Prop :=
  ∀ e ∈ events, ∃ eid pipe out, e = .pipe eid pipe out

/-- An endpoint in the list of active ones, with the events about it. -/
structure Live (ep : Ep) (events : List SockEvent) : Prop where
  fsm : ep.fsm = .active
  state : ep.state = .active
  reported : ep.reported = false
  events : PipesOnly events

/-- An endpoint in the list of those that are shutting down. -/
inductive Leaving (ep : Ep) (events : List SockEvent) : Prop where
  | stopping (hfsm : ep.fsm = .stopping) (hstate : ep.state = .stopping)
      (hreported : ep.reported = false) (hevents : PipesOnly events)
  | reported (hfsm : ep.fsm = .stopping) (hstate : ep.state = .stopping)
      (hreported : ep.reported = true) {pipes : List SockEvent} (hpipes : PipesOnly pipes)
      (hevents : events = pipes ++ [.epAction ep.eid])
  | stopped (hfsm : ep.fsm = .idle) (hstate : ep.state = .idle)
      (hreported : ep.reported = true) (hevents : events = [.epStopped ep.eid])

/-- The lists of endpoints and the queue fit together. -/
structure Listed (eps sdeps : List Ep) (eid : Nat) (events : List SockEvent) : Prop where
  nodup : ((eps ++ sdeps).map Ep.eid).Nodup
  fresh : ∀ ep ∈ eps ++ sdeps, ep.eid < eid
  live : ∀ ep ∈ eps, Live ep (events.filter (about ep.eid))
  leaving : ∀ ep ∈ sdeps, Leaving ep (events.filter (about ep.eid))
  absent : ∀ e, (∀ ep ∈ eps ++ sdeps, ep.eid ≠ e) → events.filter (about e) = []

variable {eps sdeps : List Ep} {n : Nat} {events : List SockEvent}

theorem pipesOnly_nil : PipesOnly [] := fun _ he => absurd he (by simp)

theorem PipesOnly.snoc (h : PipesOnly events) (eid pipe : Nat) (out : Bool) :
    PipesOnly (events ++ [.pipe eid pipe out]) := by
  intro e he
  rcases List.mem_append.mp he with he | he
  · exact h e he
  · exact ⟨eid, pipe, out, List.mem_singleton.mp he⟩

theorem PipesOnly.tail {e : SockEvent} (h : PipesOnly (e :: events)) : PipesOnly events :=
  fun e' he' => h e' (List.mem_cons_of_mem e he')

theorem not_pipesOnly_action {eid : Nat} : ¬ PipesOnly (.epAction eid :: events) := by
  intro h
  obtain ⟨_, _, _, heq⟩ := h _ List.mem_cons_self
  exact absurd heq (by simp)

theorem not_pipesOnly_stopped {eid : Nat} : ¬ PipesOnly (.epStopped eid :: events) := by
  intro h
  obtain ⟨_, _, _, heq⟩ := h _ List.mem_cons_self
  exact absurd heq (by simp)

/-- Endpoints are told apart by their identifiers. -/
theorem Listed.unique (h : Listed eps sdeps n events) {ep ep' : Ep} (hep : ep ∈ eps ++ sdeps)
    (hep' : ep' ∈ eps ++ sdeps) (heq : ep.eid = ep'.eid) : ep = ep' :=
  List.inj_on_of_nodup_map h.nodup hep hep' heq

theorem Listed.congr {events' : List SockEvent} (h : Listed eps sdeps n events)
    (heq : ∀ e, events'.filter (about e) = events.filter (about e)) :
    Listed eps sdeps n events' where
  nodup := h.nodup
  fresh := h.fresh
  live ep hep := by rw [heq]; exact h.live ep hep
  leaving ep hep := by rw [heq]; exact h.leaving ep hep
  absent e he := by rw [heq]; exact h.absent e he

/-- An event about a listed endpoint is in the queue. -/
theorem Listed.exists_of_about (h : Listed eps sdeps n events) {e : SockEvent} {eid : Nat}
    (he : e ∈ events) (habout : about eid e = true) : ∃ ep ∈ eps ++ sdeps, ep.eid = eid := by
  by_contra hno
  have hnil := h.absent eid fun ep hep heq => hno ⟨ep, hep, heq⟩
  have hmem : e ∈ events.filter (about eid) := List.mem_filter.mpr ⟨he, habout⟩
  rw [hnil] at hmem
  exact absurd hmem (by simp)

/-- A pipe of an endpoint whose transport has not stopped raises an event. -/
theorem Listed.raisePipe (h : Listed eps sdeps n events) {eid : Nat} (pipe : Nat) (out : Bool)
    (hep : ∃ ep ∈ eps ++ sdeps, ep.eid = eid ∧ ep.reported = false) :
    Listed eps sdeps n (events ++ [.pipe eid pipe out]) where
  nodup := h.nodup
  fresh := h.fresh
  live ep hmem := by
    obtain ⟨hfsm, hstate, hreported, hevents⟩ := h.live ep hmem
    refine ⟨hfsm, hstate, hreported, ?_⟩
    rw [List.filter_append]
    by_cases heq : eid = ep.eid
    · rw [List.filter_cons_of_pos (by simp [about, heq])]
      exact hevents.snoc _ _ _
    · rw [List.filter_cons_of_neg (by simp [about, heq]), List.filter_nil, List.append_nil]
      exact hevents
  leaving ep hmem := by
    rw [List.filter_append]
    by_cases heq : eid = ep.eid
    · rw [List.filter_cons_of_pos (by simp [about, heq])]
      obtain ⟨ep', hmem', heid, hreported⟩ := hep
      obtain rfl := h.unique hmem' (List.mem_append_right _ hmem) (heid.trans heq)
      cases h.leaving ep' hmem with
      | stopping hfsm hstate _ hevents =>
          exact .stopping hfsm hstate hreported (hevents.snoc _ _ _)
      | reported _ _ hreported' => exact absurd (hreported.symm.trans hreported') (by simp)
      | stopped _ _ hreported' => exact absurd (hreported.symm.trans hreported') (by simp)
    · rw [List.filter_cons_of_neg (by simp [about, heq]), List.filter_nil, List.append_nil]
      exact h.leaving ep hmem
  absent e he := by
    obtain ⟨ep', hmem', heid, -⟩ := hep
    have hne : eid ≠ e := fun heq => he ep' hmem' (heid.trans heq)
    rw [List.filter_append, h.absent e he, List.filter_cons_of_neg (by simp [about, hne])]
    rfl

/-- An event of a pipe is processed. -/
theorem Listed.popPipe {eid pipe : Nat} {out : Bool}
    (h : Listed eps sdeps n (.pipe eid pipe out :: events)) : Listed eps sdeps n events where
  nodup := h.nodup
  fresh := h.fresh
  live ep hmem := by
    obtain ⟨hfsm, hstate, hreported, hevents⟩ := h.live ep hmem
    refine ⟨hfsm, hstate, hreported, ?_⟩
    by_cases heq : eid = ep.eid
    · rw [List.filter_cons_of_pos (by simp [about, heq])] at hevents
      exact hevents.tail
    · rw [List.filter_cons_of_neg (by simp [about, heq])] at hevents
      exact hevents
  leaving ep hmem := by
    have hold := h.leaving ep hmem
    by_cases heq : eid = ep.eid
    · rw [List.filter_cons_of_pos (by simp [about, heq])] at hold
      cases hold with
      | stopping hfsm hstate hreported hevents =>
          exact .stopping hfsm hstate hreported hevents.tail
      | @reported hfsm hstate hreported pipes hpipes hevents =>
          cases pipes with
          | nil =>
              rw [List.nil_append] at hevents
              exact absurd (List.cons.inj hevents).1 (by simp)
          | cons first pipes =>
              rw [List.cons_append] at hevents
              exact .reported hfsm hstate hreported hpipes.tail (List.cons.inj hevents).2
      | stopped _ _ _ hevents => exact absurd (List.cons.inj hevents).1 (by simp)
    · rw [List.filter_cons_of_neg (by simp [about, heq])] at hold
      exact hold
  absent e he := by
    have hnil := h.absent e he
    by_cases heq : eid = e
    · rw [List.filter_cons_of_pos (by simp [about, heq])] at hnil
      exact absurd hnil (by simp)
    · rw [List.filter_cons_of_neg (by simp [about, heq])] at hnil
      exact hnil

/-- An endpoint is added. -/
theorem Listed.add (h : Listed eps sdeps n events) :
    Listed (eps ++ [{ eid := n }]) sdeps (n + 1) events := by
  have hperm : ((eps ++ [{ eid := n }]) ++ sdeps : List Ep).Perm ({ eid := n } :: (eps ++ sdeps)) := by
    rw [List.append_assoc]
    exact List.perm_middle
  have hnew : events.filter (about n) = [] :=
    h.absent n fun ep hep heq => absurd (h.fresh ep hep) (by omega)
  refine ⟨?_, ?_, ?_, h.leaving, ?_⟩
  · rw [(hperm.map Ep.eid).nodup_iff, List.map_cons, List.nodup_cons]
    refine ⟨fun hmem => ?_, h.nodup⟩
    obtain ⟨ep, hep, heq⟩ := List.mem_map.mp hmem
    have := h.fresh ep hep
    simp only at heq
    omega
  · intro ep hep
    rcases List.mem_cons.mp (hperm.mem_iff.mp hep) with rfl | hep
    · exact Nat.lt_succ_self n
    · exact Nat.lt_succ_of_lt (h.fresh ep hep)
  · intro ep hep
    rcases List.mem_append.mp hep with hep | hep
    · exact h.live ep hep
    · obtain rfl := List.mem_singleton.mp hep
      exact ⟨rfl, rfl, rfl, by rw [hnew]; exact pipesOnly_nil⟩
  · intro e he
    exact h.absent e fun ep hep => he ep (hperm.mem_iff.mpr (List.mem_cons_of_mem _ hep))

theorem stop_eid (ep : Ep) : ep.stop.eid = ep.eid := by
  unfold Ep.stop
  split <;> rfl

/-- An active endpoint that is asked to stop. -/
theorem Live.stop {ep : Ep} (h : Live ep events) : Leaving ep.stop events := by
  rw [Ep.stop, if_pos h.fsm]
  exact .stopping rfl rfl h.reported h.events

/-- Some active endpoints are moved to the list of those that are shutting down. -/
theorem Listed.move (h : Listed eps sdeps n events) {stay go : List Ep}
    (hperm : eps.Perm (stay ++ go)) : Listed stay (sdeps ++ go.map Ep.stop) n events := by
  have hids : ((stay ++ (sdeps ++ go.map Ep.stop)).map Ep.eid).Perm
      ((eps ++ sdeps).map Ep.eid) := by
    have hstop : (go.map Ep.stop).map Ep.eid = go.map Ep.eid := by
      rw [List.map_map]
      exact List.map_congr_left fun ep _ => stop_eid ep
    rw [List.map_append, List.map_append, hstop, List.map_append]
    refine List.Perm.trans ?_ (List.Perm.append_right _ (hperm.map Ep.eid).symm)
    rw [List.map_append, List.append_assoc]
    exact List.Perm.append_left _ List.perm_append_comm
  have hgo : ∀ ep ∈ go, ep ∈ eps := fun ep hep =>
    hperm.mem_iff.mpr (List.mem_append_right _ hep)
  have hold : ∀ ep ∈ stay ++ (sdeps ++ go.map Ep.stop), ∃ ep' ∈ eps ++ sdeps, ep'.eid = ep.eid := by
    intro ep hep
    have hmem := hids.mem_iff.mp (List.mem_map_of_mem (f := Ep.eid) hep)
    obtain ⟨ep', hep', heq⟩ := List.mem_map.mp hmem
    exact ⟨ep', hep', heq⟩
  refine ⟨hids.nodup_iff.mpr h.nodup, ?_, ?_, ?_, ?_⟩
  · intro ep hep
    obtain ⟨ep', hep', heq⟩ := hold ep hep
    rw [← heq]
    exact h.fresh ep' hep'
  · exact fun ep hep => h.live ep (hperm.mem_iff.mpr (List.mem_append_left _ hep))
  · intro ep hep
    rcases List.mem_append.mp hep with hep | hep
    · exact h.leaving ep hep
    · obtain ⟨ep', hep', rfl⟩ := List.mem_map.mp hep
      rw [stop_eid]
      exact (h.live ep' (hgo ep' hep')).stop
  · intro e he
    refine h.absent e fun ep hep heq => ?_
    have hmem := hids.mem_iff.mpr (List.mem_map_of_mem (f := Ep.eid) hep)
    obtain ⟨ep', hep', heq'⟩ := List.mem_map.mp hmem
    exact he ep' hep' (heq'.trans heq)

/-- An endpoint that is shutting down comes a step further. -/
theorem Listed.update (h : Listed eps sdeps n events) {ep : Ep} (ep' : Ep)
    {events' : List SockEvent} (hep : ep ∈ sdeps) (heid : ep'.eid = ep.eid)
    (hothers : ∀ e, e ≠ ep.eid → events'.filter (about e) = events.filter (about e))
    (hleaving : Leaving ep' (events'.filter (about ep.eid))) :
    Listed (eps.map fun x => if x.eid = ep'.eid then ep' else x)
      (sdeps.map fun x => if x.eid = ep'.eid then ep' else x) n events' := by
  have hids : ∀ l : List Ep, (l.map fun x => if x.eid = ep'.eid then ep' else x).map Ep.eid =
      l.map Ep.eid := by
    intro l
    rw [List.map_map]
    refine List.map_congr_left fun x _ => ?_
    simp only [Function.comp]
    split
    · rename_i heq
      exact heq.symm
    · rfl
  have hall : (((eps.map fun x => if x.eid = ep'.eid then ep' else x) ++
      sdeps.map fun x => if x.eid = ep'.eid then ep' else x).map Ep.eid) =
      (eps ++ sdeps).map Ep.eid := by
    rw [List.map_append, hids, hids, List.map_append]
  have hold : ∀ x ∈ (eps.map fun x => if x.eid = ep'.eid then ep' else x) ++
      (sdeps.map fun x => if x.eid = ep'.eid then ep' else x), ∃ y ∈ eps ++ sdeps, y.eid = x.eid := by
    intro x hx
    have hmem := List.mem_map_of_mem (f := Ep.eid) hx
    rw [hall] at hmem
    exact List.mem_map.mp hmem
  refine ⟨by rw [hall]; exact h.nodup, ?_, ?_, ?_, ?_⟩
  · intro x hx
    obtain ⟨y, hy, heq⟩ := hold x hx
    rw [← heq]
    exact h.fresh y hy
  · intro x hx
    obtain ⟨y, hy, rfl⟩ := List.mem_map.mp hx
    have hne : y.eid ≠ ep'.eid := fun heq => by
      have hsame := h.unique (List.mem_append_left _ hy) (List.mem_append_right _ hep)
        (heq.trans heid)
      have hnodup := h.nodup
      rw [List.map_append] at hnodup
      exact List.disjoint_of_nodup_append hnodup (List.mem_map_of_mem (f := Ep.eid) hy)
        (hsame ▸ List.mem_map_of_mem (f := Ep.eid) hep)
    rw [if_neg hne, hothers _ fun heq => hne (heq.trans heid.symm)]
    exact h.live y hy
  · intro x hx
    obtain ⟨y, hy, rfl⟩ := List.mem_map.mp hx
    by_cases heq : y.eid = ep'.eid
    · rw [if_pos heq, heid]
      exact hleaving
    · rw [if_neg heq, hothers _ fun heq' => heq (heq'.trans heid.symm)]
      exact h.leaving y hy
  · intro e he
    have hne : e ≠ ep.eid := fun heq => by
      have hmem : ep.eid ∈ (eps ++ sdeps).map Ep.eid :=
        List.mem_map_of_mem (List.mem_append_right _ hep)
      rw [← hall] at hmem
      obtain ⟨x, hx, hx'⟩ := List.mem_map.mp hmem
      exact he x hx (hx'.trans heq.symm)
    rw [hothers e hne]
    refine h.absent e fun y hy heq => ?_
    have hmem := List.mem_map_of_mem (f := Ep.eid) hy
    rw [← hall] at hmem
    obtain ⟨x, hx, hx'⟩ := List.mem_map.mp hmem
    exact he x hx (hx'.trans heq)

/-- The events about an endpoint when an event about another one is added. -/
theorem filter_about_snoc (e e' : Nat) {ev : SockEvent} (hev : about e ev = decide (e = e')) :
    (events ++ [ev]).filter (about e) =
      if e = e' then events.filter (about e) ++ [ev] else events.filter (about e) := by
  rw [List.filter_append]
  split
  · rw [List.filter_cons_of_pos (by simpa [hev]), List.filter_nil]
  · rw [List.filter_cons_of_neg (by simpa [hev]), List.filter_nil, List.append_nil]

/-- The transport of an endpoint that was asked to stop has not reported. -/
theorem Listed.unreported (h : Listed eps sdeps n events) {ep : Ep} (hep : ep ∈ eps ++ sdeps)
    (hstate : ep.state = .stopping) (hreported : ep.reported = false) :
    ep ∈ sdeps ∧ ep.fsm = .stopping ∧ PipesOnly (events.filter (about ep.eid)) := by
  rcases List.mem_append.mp hep with hep | hep
  · exact absurd ((h.live ep hep).state.symm.trans hstate) (by simp)
  · refine ⟨hep, ?_⟩
    cases h.leaving ep hep with
    | stopping hfsm _ _ hevents => exact ⟨hfsm, hevents⟩
    | reported _ _ hreported' => exact absurd (hreported.symm.trans hreported') (by simp)
    | stopped _ _ hreported' => exact absurd (hreported.symm.trans hreported') (by simp)

/-- The transport reports. -/
theorem Listed.report (h : Listed eps sdeps n events) {ep : Ep} (hep : ep ∈ eps ++ sdeps)
    (hstate : ep.state = .stopping) (hreported : ep.reported = false) :
    SockEvent.epAction ep.eid ∉ events ∧
    Listed (eps.map fun x => if x.eid = ep.eid then { ep with reported := true } else x)
      (sdeps.map fun x => if x.eid = ep.eid then { ep with reported := true } else x) n
      (events ++ [.epAction ep.eid]) := by
  obtain ⟨hmem, hfsm, hpipes⟩ := h.unreported hep hstate hreported
  refine ⟨fun hin => ?_, h.update { ep with reported := true } hmem rfl ?_ ?_⟩
  · obtain ⟨_, _, _, heq⟩ := hpipes _ (List.mem_filter.mpr ⟨hin, by simp [about]⟩)
    exact absurd heq (by simp)
  · intro e hne
    rw [filter_about_snoc _ ep.eid (by simp [about, eq_comm]), if_neg hne]
  · refine .reported hfsm hstate rfl hpipes ?_
    rw [filter_about_snoc _ ep.eid (by simp [about]), if_pos rfl]

/-- The endpoint is told that its transport has stopped, and tells the socket. -/
theorem Listed.action {eid : Nat} (h : Listed eps sdeps n (.epAction eid :: events)) :
    ∃ ep ∈ sdeps, ep.eid = eid ∧ ep.fsm = .stopping ∧ ep.state = .stopping ∧
      SockEvent.epStopped eid ∉ events ∧
      Listed (eps.map fun x => if x.eid = eid then { ep with state := .idle, fsm := .idle } else x)
        (sdeps.map fun x => if x.eid = eid then { ep with state := .idle, fsm := .idle } else x)
        n (events ++ [.epStopped eid]) := by
  obtain ⟨ep, hep, rfl⟩ :=
    h.exists_of_about List.mem_cons_self (by simp [about] : about eid (.epAction eid) = true)
  have hhead : (SockEvent.epAction ep.eid :: events).filter (about ep.eid) =
      .epAction ep.eid :: events.filter (about ep.eid) :=
    List.filter_cons_of_pos (by simp [about])
  rcases List.mem_append.mp hep with hmem | hmem
  · have hpipes := (h.live ep hmem).events
    rw [hhead] at hpipes
    exact absurd hpipes not_pipesOnly_action
  · have hleaving := h.leaving ep hmem
    rw [hhead] at hleaving
    cases hleaving with
    | stopping _ _ _ hpipes => exact absurd hpipes not_pipesOnly_action
    | stopped _ _ _ hevents => exact absurd (List.cons.inj hevents).1 (by simp)
    | @reported hfsm hstate hreported pipes hpipes hevents =>
        -- the transport reports last
        have hnone : events.filter (about ep.eid) = [] := by
          cases pipes with
          | nil => exact (List.cons.inj hevents).2
          | cons first pipes =>
              rw [List.cons_append] at hevents
              rw [← (List.cons.inj hevents).1] at hpipes
              exact absurd hpipes not_pipesOnly_action
        refine ⟨ep, hmem, rfl, hfsm, hstate, fun hin => ?_,
          h.update { ep with state := .idle, fsm := .idle } hmem rfl ?_ ?_⟩
        · have hin' := List.mem_filter.mpr ⟨hin, (by simp [about] :
            about ep.eid (.epStopped ep.eid) = true)⟩
          rw [hnone] at hin'
          exact absurd hin' (by simp)
        · intro e hne
          rw [filter_about_snoc _ ep.eid (by simp [about, eq_comm]), if_neg hne,
            List.filter_cons_of_neg (by simp [about, hne.symm])]
        · refine .stopped rfl rfl hreported ?_
          rw [filter_about_snoc _ ep.eid (by simp [about]), if_pos rfl, hnone,
            List.nil_append]

/-- Once an endpoint is erased, no other has its identifier. -/
theorem Listed.eid_ne_of_mem_eraseP (h : Listed eps sdeps n events) {eid : Nat} :
    ∀ x ∈ sdeps.eraseP (·.eid = eid), x.eid ≠ eid := by
  intro x hx heq
  have hnodup := h.nodup
  rw [List.map_append] at hnodup
  have hnodup' := (List.nodup_append.mp hnodup).2.1
  obtain ⟨a, l₁, l₂, hl₁, ha, hsdeps, herase⟩ := List.exists_of_eraseP
    (p := fun x => decide (x.eid = eid)) (List.mem_of_mem_eraseP hx) (by simp [heq])
  rw [herase] at hx
  rw [hsdeps, List.map_append, List.map_cons, List.nodup_append, List.nodup_cons] at hnodup'
  have hax : a.eid = eid := by simpa using ha
  rcases List.mem_append.mp hx with hx | hx
  · exact hl₁ x hx (by simp [heq])
  · exact hnodup'.2.1.1 (hax.trans heq.symm ▸ List.mem_map_of_mem hx)

/-- The socket is told that an endpoint has stopped, and frees it. -/
theorem Listed.free {eid : Nat} (h : Listed eps sdeps n (.epStopped eid :: events)) :
    ∃ ep ∈ sdeps, sdeps.find? (·.eid = eid) = some ep ∧ ep.state = .idle ∧ ep.fsm = .idle ∧
      SockEvent.epStopped eid ∉ events ∧
      Listed eps (sdeps.eraseP (·.eid = eid)) n events := by
  obtain ⟨ep, hep, rfl⟩ :=
    h.exists_of_about List.mem_cons_self (by simp [about] : about eid (.epStopped eid) = true)
  have hhead : (SockEvent.epStopped ep.eid :: events).filter (about ep.eid) =
      .epStopped ep.eid :: events.filter (about ep.eid) :=
    List.filter_cons_of_pos (by simp [about])
  rcases List.mem_append.mp hep with hmem | hmem
  · have hpipes := (h.live ep hmem).events
    rw [hhead] at hpipes
    exact absurd hpipes not_pipesOnly_stopped
  · have hleaving := h.leaving ep hmem
    rw [hhead] at hleaving
    cases hleaving with
    | stopping _ _ _ hpipes => exact absurd hpipes not_pipesOnly_stopped
    | @reported _ _ _ pipes hpipes hevents =>
        cases pipes with
        | nil => exact absurd (List.cons.inj hevents).1 (by simp)
        | cons first pipes =>
            rw [List.cons_append] at hevents
            rw [← (List.cons.inj hevents).1] at hpipes
            exact absurd hpipes not_pipesOnly_stopped
    | stopped hfsm hstate hreported hevents =>
        have hnone : events.filter (about ep.eid) = [] := (List.cons.inj hevents).2
        obtain ⟨found, hfound⟩ : ∃ found, sdeps.find? (·.eid = ep.eid) = some found :=
          Option.isSome_iff_exists.mp (List.find?_isSome.mpr ⟨ep, hmem, by simp⟩)
        have heid : found.eid = ep.eid := by simpa using List.find?_some hfound
        obtain rfl : found = ep := h.unique
          (List.mem_append_right _ (List.mem_of_find?_eq_some hfound))
          (List.mem_append_right _ hmem) heid
        have hothers : ∀ e, e ≠ found.eid → events.filter (about e) =
            (SockEvent.epStopped found.eid :: events).filter (about e) := fun e hne => by
          rw [List.filter_cons_of_neg (by simp [about, hne.symm])]
        have hsub : (sdeps.eraseP (·.eid = found.eid)).Sublist sdeps := List.eraseP_sublist
        have hleft : ∀ x ∈ sdeps.eraseP (·.eid = found.eid), x.eid ≠ found.eid :=
          h.eid_ne_of_mem_eraseP
        refine ⟨found, hmem, hfound, hstate, hfsm, fun hin => ?_, ?_, ?_, ?_, ?_, ?_⟩
        · have hin' := List.mem_filter.mpr ⟨hin, (by simp [about] :
            about found.eid (.epStopped found.eid) = true)⟩
          rw [hnone] at hin'
          exact absurd hin' (by simp)
        · exact h.nodup.sublist ((List.Sublist.append_left hsub eps).map Ep.eid)
        · intro x hx
          exact h.fresh x ((List.Sublist.append_left hsub eps).subset hx)
        · intro x hx
          have hne : x.eid ≠ found.eid := fun heq => by
            have hnodup := h.nodup
            rw [List.map_append] at hnodup
            exact List.disjoint_of_nodup_append hnodup (List.mem_map_of_mem (f := Ep.eid) hx)
              (heq ▸ List.mem_map_of_mem (f := Ep.eid) hmem)
          rw [hothers _ hne]
          exact h.live x hx
        · intro x hx
          rw [hothers _ (hleft x hx)]
          exact h.leaving x (hsub.subset hx)
        · intro e he
          by_cases heq : e = found.eid
          · rw [heq]
            exact hnone
          · rw [hothers e heq]
            refine h.absent e fun x hx hxe => ?_
            rcases List.mem_append.mp hx with hx | hx
            · exact he x (List.mem_append_left _ hx) hxe
            · refine he x (List.mem_append_right _ ?_) hxe
              exact (List.mem_eraseP_of_neg (by simpa using fun h => heq (hxe.symm.trans h))).mpr hx

end GridMq.Core.Sock
