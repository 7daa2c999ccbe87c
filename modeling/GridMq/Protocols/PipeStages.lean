import GridMq.Protocols.SocketPipes

set_option autoImplicit false

/-!
# Pipes that become ready

In either direction an attached pipe waits for its transport, has its event pending, or is one
of those that the socket type holds ready.  A socket type keeps this up for the directions that
it uses, with whatever list it has.
-/

namespace GridMq.Protocols

open GridMq.Aio GridMq.Core GridMq.Library

/-- What a pipe shows in one direction. -/
structure Direction where
  event : PipeEvent
  prio : WirePipe → Nat
  idle : WirePipe → Prop
  waits : WirePipe → Prop

/-- Receiving: a pipe that is idle has a message. -/
def inward : Direction where
  event := .pipeIn
  prio := (·.rcvprio)
  idle pipe := pipe.instate = .idle ∧ pipe.session.inbox ≠ []
  waits pipe := pipe.instate = .async ∧ pipe.session.inbox = []

/-- Sending. -/
def outward : Direction where
  event := .pipeOut
  prio := (·.sndprio)
  idle pipe := pipe.outstate = .idle
  waits pipe := pipe.outstate = .async

/-- A pipe shows the same as another one. -/
def Direction.Alike (dir : Direction) (pipe' pipe : WirePipe) : Prop :=
  (dir.idle pipe' ↔ dir.idle pipe) ∧ (dir.waits pipe' ↔ dir.waits pipe)

theorem inward_alike {pipe pipe' : WirePipe} (hstate : pipe'.instate = pipe.instate)
    (hinbox : pipe'.session.inbox = pipe.session.inbox) : inward.Alike pipe' pipe := by
  simp only [Direction.Alike, inward, hstate, hinbox, and_self]

theorem outward_alike {pipe pipe' : WirePipe} (hstate : pipe'.outstate = pipe.outstate) :
    outward.Alike pipe' pipe := by
  simp only [Direction.Alike, outward, hstate, and_self]

/-- Where a pipe is in one direction. -/
inductive Stage (dir : Direction) (pipe : WirePipe) (ready : Prop) (pending : Nat) : Prop where
  | waiting (hstate : dir.waits pipe) (hready : ¬ready) (hpending : pending = 0)
  | announced (hstate : dir.idle pipe) (hready : ¬ready) (hpending : pending = 1)
  | listed (hstate : dir.idle pipe) (hready : ready) (hpending : pending = 0)

/-- The pipes that a socket type holds ready are attached, and every attached pipe is where it
should be. -/
structure Staged (dir : Direction) (w : SocketPipes) (ready : Nat → Prop) : Prop where
  attached : ∀ p, ready p → ∃ pipe, w.pipes p = some pipe
  stage : ∀ p pipe, w.pipes p = some pipe →
    Stage dir pipe (ready p) (w.events.count (p, dir.event))

namespace Staged

variable {dir : Direction} {w w' : SocketPipes} {ready ready' : Nat → Prop} {p : Nat}
  {pipe pipe' : WirePipe}

theorem init (dir : Direction) : Staged dir {} fun _ => False where
  attached p h := h.elim
  stage p pipe h := absurd h (by simp)

/-- One pipe replaced, added or removed. -/
theorem update (h : Staged dir w ready)
    (hpipes : ∀ q, q ≠ p → w'.pipes q = w.pipes q)
    (hevents : ∀ q, q ≠ p → w'.events.count (q, dir.event) = w.events.count (q, dir.event))
    (hready : ∀ q, q ≠ p → (ready' q ↔ ready q))
    (hattached : ready' p → ∃ pipe, w'.pipes p = some pipe)
    (hstage : ∀ pipe, w'.pipes p = some pipe →
      Stage dir pipe (ready' p) (w'.events.count (p, dir.event))) : Staged dir w' ready' where
  attached q hq := by
    rcases eq_or_ne q p with rfl | hne
    · exact hattached hq
    · rw [hpipes q hne]
      exact h.attached q ((hready q hne).mp hq)
  stage q pipe hq := by
    rcases eq_or_ne q p with rfl | hne
    · exact hstage pipe hq
    · rw [hpipes q hne] at hq
      rw [hevents q hne, propext (hready q hne)]
      exact h.stage q pipe hq

/-- One attached pipe replaced. -/
theorem replace (h : Staged dir w ready)
    (hpipes : w'.pipes = Function.update w.pipes p (some pipe'))
    (hevents : ∀ q, q ≠ p → w'.events.count (q, dir.event) = w.events.count (q, dir.event))
    (hready : ∀ q, q ≠ p → (ready' q ↔ ready q))
    (hstage : Stage dir pipe' (ready' p) (w'.events.count (p, dir.event))) :
    Staged dir w' ready' := by
  have hself : w'.pipes p = some pipe' := by
    rw [hpipes, Function.update_self]
  refine h.update (p := p) ?_ hevents hready (fun _ => ⟨pipe', hself⟩) ?_
  · intro q hq
    rw [hpipes, Function.update_of_ne hq]
  · intro pipe hpipe
    obtain rfl := Option.some.inj (hself.symm.trans hpipe)
    exact hstage

/-- Nothing changes in a direction when a pipe changes in the other one. -/
theorem other (h : Staged dir w ready) (hpipe : w.pipes p = some pipe)
    (hpipes : w'.pipes = Function.update w.pipes p (some pipe'))
    (hevents : ∀ q, w'.events.count (q, dir.event) = w.events.count (q, dir.event))
    (halike : dir.Alike pipe' pipe) : Staged dir w' ready := by
  refine h.replace hpipes (fun q _ => hevents q) (fun _ _ => Iff.rfl) ?_
  rw [hevents p]
  cases h.stage p pipe hpipe with
  | waiting hstate hready hpending => exact .waiting (halike.2.mpr hstate) hready hpending
  | announced hstate hready hpending => exact .announced (halike.1.mpr hstate) hready hpending
  | listed hstate hready hpending => exact .listed (halike.1.mpr hstate) hready hpending

/-- Nothing changes when an event of the other direction is taken. -/
theorem keep (h : Staged dir w ready) (hpipes : w'.pipes = w.pipes)
    (hevents : ∀ q, w'.events.count (q, dir.event) = w.events.count (q, dir.event)) :
    Staged dir w' ready where
  attached q hq := by
    rw [hpipes]
    exact h.attached q hq
  stage q pipe hq := by
    rw [hpipes] at hq
    rw [hevents]
    exact h.stage q pipe hq

/-- A pipe that is announced is made ready. -/
theorem activate (h : Staged dir w ready) (hpending : w.Pending p dir.event)
    (hready : ∀ q, ready' q ↔ q = p ∨ ready q) :
    ¬ready p ∧ Staged dir (w.took p dir.event) ready' := by
  obtain ⟨pipe, hpipe⟩ := Option.isSome_iff_exists.mp hpending.1
  have hcount := List.count_pos_iff.mpr hpending.2
  have hstate : dir.idle pipe ∧ ¬ready p ∧ w.events.count (p, dir.event) = 1 := by
    cases h.stage p pipe hpipe with
    | waiting _ _ hnone => exact absurd hnone (by omega)
    | announced hstate hready hone => exact ⟨hstate, hready, hone⟩
    | listed _ _ hnone => exact absurd hnone (by omega)
  refine ⟨hstate.2.1, h.update (p := p) (fun _ _ => rfl) ?_ ?_ (fun _ => ⟨pipe, hpipe⟩) ?_⟩
  · intro q hq
    exact PipeQueues.count_erase_ne (by simp [hq])
  · intro q hq
    rw [hready]
    exact or_iff_right hq
  · intro pipe' hpipe'
    obtain rfl := Option.some.inj (hpipe.symm.trans hpipe')
    refine .listed hstate.1 ((hready p).mpr (Or.inl rfl)) ?_
    change (w.events.erase (p, dir.event)).count _ = 0
    rw [List.count_erase_self, hstate.2.2]

/-- A pipe is removed. -/
theorem detach (h : Staged dir w ready) (hpipes : w'.pipes = Function.update w.pipes p none)
    (hevents : w'.events = w.events) (hready : ∀ q, ready' q ↔ ready q ∧ q ≠ p) :
    Staged dir w' ready' := by
  have hself : w'.pipes p = none := by
    rw [hpipes, Function.update_self]
  refine h.update (p := p) ?_ (fun _ _ => by rw [hevents]) ?_ ?_ ?_
  · intro q hq
    rw [hpipes, Function.update_of_ne hq]
  · intro q hq
    rw [hready]
    exact and_iff_left hq
  · intro hp
    exact absurd rfl ((hready p).mp hp).2
  · intro pipe hpipe
    exact absurd (hself.symm.trans hpipe) (by simp)

/-- A pipe that is ready is idle, and its event is not pending. -/
theorem of_ready (h : Staged dir w ready) (hready : ready p) :
    ∃ pipe, w.pipes p = some pipe ∧ dir.idle pipe ∧ w.events.count (p, dir.event) = 0 := by
  obtain ⟨pipe, hpipe⟩ := h.attached p hready
  refine ⟨pipe, hpipe, ?_⟩
  cases h.stage p pipe hpipe with
  | waiting _ hno _ => exact absurd hready hno
  | announced _ hno _ => exact absurd hready hno
  | listed hstate _ hpending => exact ⟨hstate, hpending⟩

end Staged

/-! ## Attaching, and the reports of the transports -/

namespace SocketPipes

variable {w w' : SocketPipes} {ready : Nat → Prop} {p : Nat} {pipe : WirePipe}

theorem Named.count_fresh (h : w.Named) (hfresh : w.Fresh p) (e : PipeEvent) :
    w.events.count (p, e) = 0 := by
  apply List.count_eq_zero.mpr
  intro hmem
  exact hfresh (h.events _ hmem)

/-- The names stay used ones when pipes are replaced and events of them are raised or taken. -/
theorem Named.keep (h : w.Named) (hused : ∀ q ∈ w.used, q ∈ w'.used)
    (hpipes : ∀ q pipe, w'.pipes q = some pipe → q ∈ w'.used)
    (hevents : ∀ e ∈ w'.events, e ∈ w.events ∨ e.1 ∈ w'.used) : w'.Named where
  pipes := hpipes
  events e he := (hevents e he).elim (fun hold => hused _ (h.events e hold)) id

/-- The name of an attached pipe stays used when the pipe is replaced, and events of it may be
raised. -/
theorem Named.replace {pipe' : WirePipe} (h : w.Named) (hpipe : w.pipes p = some pipe)
    (hpipes : w'.pipes = Function.update w.pipes p (some pipe')) (hused : w'.used = w.used)
    (hevents : ∀ e ∈ w'.events, e ∈ w.events ∨ e.1 = p) : w'.Named := by
  refine h.keep (fun q hq => hused ▸ hq) ?_ ?_
  · intro q pipe₁ hq
    rw [hpipes] at hq
    rw [hused]
    rcases eq_or_ne q p with rfl | hne
    · exact h.pipes q pipe hpipe
    · rw [Function.update_of_ne hne] at hq
      exact h.pipes q pipe₁ hq
  · intro e he
    refine (hevents e he).imp_right ?_
    intro hep
    rw [hused, hep]
    exact h.pipes p pipe hpipe

theorem Named.took (h : w.Named) (p : Nat) (e : PipeEvent) : (w.took p e).Named :=
  h.keep (fun _ hq => hq) h.pipes fun _ he => Or.inl (List.mem_of_mem_erase he)

theorem Named.detach (h : w.Named) (p : Nat) : (w.setPipe p none).Named := by
  refine h.keep (fun _ hq => hq) ?_ fun _ he => Or.inl he
  intro q pipe hq
  rcases eq_or_ne q p with rfl | hne
  · rw [setPipe_pipes, Function.update_self] at hq
    exact absurd hq (by simp)
  · rw [setPipe_pipes, Function.update_of_ne hne] at hq
    exact h.pipes q pipe hq

/-- What a new pipe brings with it. -/
structure Attaching (w w' : SocketPipes) (p sndprio rcvprio : Nat) : Prop where
  named : w'.Named
  pipes : w'.pipes = Function.update w.pipes p (some (started sndprio rcvprio))
  used : w'.used = p :: w.used
  countIn : ∀ q, w'.events.count (q, .pipeIn) = w.events.count (q, .pipeIn)
  countOut : ∀ q, w'.events.count (q, .pipeOut) =
    if q = p then 1 else w.events.count (q, .pipeOut)

theorem attach_spec (sndprio rcvprio : Nat) (h : w.Named) (hfresh : w.Fresh p) :
    ∃ w', w.attach p sndprio rcvprio = .ok w' ∧ Attaching w w' p sndprio rcvprio := by
  refine ⟨_, attach_ok h hfresh, ?_, rfl, rfl, ?_, ?_⟩
  · refine h.keep (fun q hq => List.mem_cons_of_mem p hq) ?_ ?_
    · intro q pipe hq
      rcases eq_or_ne q p with rfl | hne
      · exact List.mem_cons_self
      · have hold := (Function.update_of_ne hne _ _).symm.trans hq
        exact List.mem_cons_of_mem p (h.pipes q pipe hold)
    · intro e he
      rcases List.mem_append.mp he with he | he
      · exact Or.inl he
      · obtain rfl := List.mem_singleton.mp he
        exact Or.inr List.mem_cons_self
  · intro q
    exact PipeQueues.count_concat_ne (by simp)
  · intro q
    split
    · rename_i hq
      rw [hq]
      exact PipeQueues.count_concat_self (h.count_fresh hfresh _)
    · rename_i hq
      exact PipeQueues.count_concat_ne (by simp [hq])

theorem Named.not_ready (hn : w.Named) (hfresh : w.Fresh p) {dir : Direction}
    (h : Staged dir w ready) : ¬ready p := by
  intro hready
  obtain ⟨pipe, hpipe⟩ := h.attached p hready
  exact hfresh (hn.pipes p pipe hpipe)

/-- A new pipe has nothing to be read. -/
theorem Attaching.inward {sndprio rcvprio : Nat} (ha : Attaching w w' p sndprio rcvprio)
    (hn : w.Named) (hfresh : w.Fresh p) (h : Staged inward w ready) : Staged inward w' ready := by
  refine h.replace ha.pipes (fun q _ => ha.countIn q) (fun _ _ => Iff.rfl) ?_
  refine .waiting ⟨rfl, rfl⟩ (hn.not_ready hfresh h) ?_
  exact (ha.countIn p).trans (hn.count_fresh hfresh _)

/-- A new pipe is about to become ready for sending. -/
theorem Attaching.outward {sndprio rcvprio : Nat} (ha : Attaching w w' p sndprio rcvprio)
    (hn : w.Named) (hfresh : w.Fresh p) (h : Staged outward w ready) :
    Staged outward w' ready := by
  refine h.replace ha.pipes ?_ (fun _ _ => Iff.rfl) ?_
  · intro q hq
    exact (ha.countOut q).trans (if_neg hq)
  · refine .announced rfl (hn.not_ready hfresh h) ?_
    exact (ha.countOut p).trans (if_pos rfl)

/-- What a report about an attached pipe changes: the pipe, and the events of one direction. -/
structure Reporting (w w' : SocketPipes) (p : Nat) (pipe pipe' : WirePipe) (e : PipeEvent) :
    Prop where
  named : w'.Named
  was : w.pipes p = some pipe
  pipes : w'.pipes = Function.update w.pipes p (some pipe')
  used : w'.used = w.used
  count : ∀ q e', e' ≠ e → w'.events.count (q, e') = w.events.count (q, e')
  sndprio : pipe'.sndprio = pipe.sndprio
  rcvprio : pipe'.rcvprio = pipe.rcvprio

/-- A message that arrives becomes the last one of its pipe. -/
structure Arriving (w w' : SocketPipes) (p : Nat) (wire : List UInt8) (pipe pipe' : WirePipe) :
    Prop extends Reporting w w' p pipe pipe' .pipeIn where
  inbox : pipe'.session.inbox = pipe.session.inbox ++ [wire]
  outstate : pipe'.outstate = pipe.outstate
  outbox : pipe'.session.outbox = pipe.session.outbox

/-- A message of a pipe was sent. -/
structure Sent (w w' : SocketPipes) (p : Nat) (pipe pipe' : WirePipe) : Prop extends
    Reporting w w' p pipe pipe' .pipeOut where
  instate : pipe'.instate = pipe.instate
  session : pipe'.session = pipe.session

/-- The pipe, in a direction that the report is not about, is where it was. -/
theorem Reporting.other {pipe' : WirePipe} {e : PipeEvent} {dir : Direction}
    (hr : Reporting w w' p pipe pipe' e) (h : Staged dir w ready) (he : dir.event ≠ e)
    (halike : dir.Alike pipe' pipe) : Staged dir w' ready :=
  h.other hr.was hr.pipes (fun q => hr.count q _ he) halike

theorem count_raised {e e' : PipeEvent} (q : Nat) (h : e' ≠ e) :
    (w.events ++ [(p, e)]).count (q, e') = w.events.count (q, e') :=
  PipeQueues.count_concat_ne (by simp [h])

theorem mem_raised {e : PipeEvent} {x : Nat × PipeEvent} (hx : x ∈ w.events ++ [(p, e)]) :
    x ∈ w.events ∨ x.1 = p := by
  rcases List.mem_append.mp hx with hx | hx
  · exact Or.inl hx
  · obtain rfl := List.mem_singleton.mp hx
    exact Or.inr rfl

/-- A message that arrives on a pipe with other messages. -/
theorem arrive_behind (hn : w.Named) (h : Staged Protocols.inward w ready)
    (hpipe : w.pipes p = some pipe) (hne : pipe.session.inbox ≠ []) (wire : List UInt8) :
    ∃ w' pipe', w.arrive p wire = .ok w' ∧ Arriving w w' p wire pipe pipe' ∧
      Staged Protocols.inward w' ready := by
  refine ⟨_, { pipe with
    session := { pipe.session with inbox := pipe.session.inbox ++ [wire] } },
    arrive_more wire hpipe hne, ?_, ?_⟩
  · exact ⟨⟨hn.replace hpipe rfl rfl fun e he => Or.inl he, hpipe, rfl, rfl, fun _ _ _ => rfl,
      rfl, rfl⟩, rfl, rfl, rfl⟩
  · refine h.other hpipe rfl (fun _ => rfl) ⟨?_, ?_⟩
    · exact and_congr_right fun _ => ⟨fun _ => hne, fun _ => by simp⟩
    · exact and_congr_right fun _ => ⟨fun hnil => absurd hnil (by simp), fun hnil =>
        absurd hnil hne⟩

theorem arrive_spec (hn : w.Named) (h : Staged Protocols.inward w ready) (ha : w.Attached p)
    (wire : List UInt8) : ∃ w' pipe pipe', w.arrive p wire = .ok w' ∧
      Arriving w w' p wire pipe pipe' ∧ Staged Protocols.inward w' ready := by
  obtain ⟨pipe, hpipe⟩ := pipe_of_attached ha
  cases h.stage p pipe hpipe with
  | waiting hstate hready hpending =>
      have hfree : (p, PipeEvent.pipeIn) ∉ w.events := List.count_eq_zero.mp hpending
      refine ⟨_, pipe, { pipe with
        instate := .idle
        session := { pipe.session with inbox := [wire] } },
        arrive_first wire hpipe hstate.1 hstate.2 hfree, ?_, ?_⟩
      · refine ⟨⟨hn.replace hpipe rfl rfl fun e he => mem_raised he, hpipe, rfl, rfl,
          fun q e' he => count_raised q he, rfl, rfl⟩, ?_, rfl, rfl⟩
        rw [hstate.2]
        rfl
      · refine h.replace rfl ?_ (fun _ _ => Iff.rfl) ?_
        · intro q hq
          exact PipeQueues.count_concat_ne (by simp [hq])
        · exact .announced ⟨rfl, by simp⟩ hready (PipeQueues.count_concat_self hpending)
  | announced hstate hready hpending | listed hstate hready hpending =>
      obtain ⟨w', pipe', hcall⟩ := arrive_behind hn h hpipe hstate.2 wire
      exact ⟨w', pipe, pipe', hcall⟩

/-- A pipe that has sent its message is about to become ready again. -/
theorem sent_spec (hn : w.Named) (h : Staged Protocols.outward w ready) (hs : w.Sending p) :
    ∃ w' pipe pipe', w.sent p = .ok w' ∧ Sent w w' p pipe pipe' ∧
      Staged Protocols.outward w' ready := by
  obtain ⟨pipe, hpipe, hstate⟩ := (Option.any_eq_true _ _).mp hs
  have hasync : pipe.outstate = .async := by simpa using hstate
  have hstage : ¬ready p ∧ w.events.count (p, .pipeOut) = 0 := by
    cases h.stage p pipe hpipe with
    | waiting _ hready hpending => exact ⟨hready, hpending⟩
    | announced hidle _ _ => exact absurd (hidle.symm.trans hasync) (by simp)
    | listed hidle _ _ => exact absurd (hidle.symm.trans hasync) (by simp)
  have hfree : (p, PipeEvent.pipeOut) ∉ w.events := List.count_eq_zero.mp hstage.2
  refine ⟨_, pipe, { pipe with outstate := .idle }, sent_ok hpipe hasync hfree, ?_, ?_⟩
  · exact ⟨⟨hn.replace hpipe rfl rfl fun e he => mem_raised he, hpipe, rfl, rfl,
      fun q e' he => count_raised q he, rfl, rfl⟩, rfl, rfl⟩
  · refine h.replace rfl ?_ (fun _ _ => Iff.rfl) ?_
    · intro q hq
      exact PipeQueues.count_concat_ne (by simp [hq])
    · exact .announced rfl hstage.1 (PipeQueues.count_concat_self hstage.2)

end SocketPipes

end GridMq.Protocols
