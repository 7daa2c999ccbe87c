import GridMq.Protocols.PipeStages

set_option autoImplicit false

/-!
# The fair queue and the load balancer (`src/protocols/utils/fq.c`, `lb.c`)

Both keep the pipes that are ready in a prioritised list, one for receiving and one for
sending.  Every message that is received comes from the front of a pipe in the list, and every
message that is sent goes to one pipe in it.
-/

namespace GridMq.Protocols

open GridMq.Aio GridMq.Core GridMq.Library

/-- `grid_fq_in` and `grid_lb_out`. -/
def Direction.activate (dir : Direction) (w : SocketPipes) (l : Priolist) (p : Nat) :
    Except Abort Priolist := do
  let pipe ← w.getPipe p
  l.activate ⟨p, dir.prio pipe⟩

/-- `grid_fq_rm` and `grid_lb_rm`. -/
def Direction.remove (dir : Direction) (w : SocketPipes) (l : Priolist) (p : Nat) :
    Except Abort Priolist := do
  let pipe ← w.getPipe p
  return l.rm ⟨p, dir.prio pipe⟩

/-- `grid_fq_in`. -/
def SocketPipes.fqIn (w : SocketPipes) (fq : Priolist) (p : Nat) : Except Abort Priolist :=
  inward.activate w fq p

/-- `grid_fq_rm`. -/
def SocketPipes.fqRm (w : SocketPipes) (fq : Priolist) (p : Nat) : Except Abort Priolist :=
  inward.remove w fq p

/-- `grid_lb_out`. -/
def SocketPipes.lbOut (w : SocketPipes) (lb : Priolist) (p : Nat) : Except Abort Priolist :=
  outward.activate w lb p

/-- `grid_lb_rm`. -/
def SocketPipes.lbRm (w : SocketPipes) (lb : Priolist) (p : Nat) : Except Abort Priolist :=
  outward.remove w lb p

/-- `grid_fq_recv`, with the pipe that the message came from; `none` is `-EAGAIN`. -/
def SocketPipes.fqRecv (w : SocketPipes) (fq : Priolist) :
    Except Abort ((SocketPipes × Priolist) × Option (Nat × List UInt8)) := do
  match ← fq.getpipe with
  | none => return ((w, fq), none)
  | some d =>
      let r ← w.recv d.pipe
      let fq ← fq.advance r.2.2
      return ((r.1, fq), some (d.pipe, r.2.1))

/-- `grid_lb_send`, with the pipe that the message went to; `none` is `-EAGAIN`. -/
def SocketPipes.lbSend (w : SocketPipes) (msg : Msg) (lb : Priolist) :
    Except Abort ((SocketPipes × Priolist) × Option Nat) := do
  match ← lb.getpipe with
  | none => return ((w, lb), none)
  | some d =>
      let r ← w.send msg d.pipe
      let lb ← lb.advance r.2
      return ((r.1, lb), some d.pipe)

/-! ## The pipes of a list -/

/-- A pipe is in the list, under some priority. -/
def Priolist.Holds (l : Priolist) (p : Nat) : Prop := ∃ prio, l.Active ⟨p, prio⟩

/-- The pipes of a list are attached and have the priorities under which they are listed. -/
structure Queued (prio : WirePipe → Nat) (w : SocketPipes) (l : Priolist) : Prop where
  wf : l.WF
  range : ∀ p pipe, w.pipes p = some pipe → 1 ≤ prio pipe ∧ prio pipe ≤ 16
  listed : ∀ d, l.Active d → ∃ pipe, w.pipes d.pipe = some pipe ∧ prio pipe = d.priority

/-- A list holds the pipes that are ready in a direction. -/
structure Kept (dir : Direction) (w : SocketPipes) (l : Priolist) : Prop extends
    Queued dir.prio w l, Staged dir w l.Holds

variable {dir : Direction} {prio : WirePipe → Nat} {w w' : SocketPipes} {l l' : Priolist}
  {p : Nat} {pipe pipe' : WirePipe}

namespace Queued

theorem init (prio : WirePipe → Nat) : Queued prio {} .init where
  wf := Priolist.wf_init
  range p pipe h := absurd h (by simp)
  listed d h := absurd h (Priolist.not_active_init d)

/-- A pipe that is held is held under its priority. -/
theorem holds_iff (h : Queued prio w l) (hpipe : w.pipes p = some pipe) :
    l.Holds p ↔ l.Active ⟨p, prio pipe⟩ := by
  constructor
  · intro hp
    obtain ⟨priority, hactive⟩ := hp
    obtain ⟨pipe', hpipe', heq⟩ := h.listed _ hactive
    obtain rfl := Option.some.inj (hpipe.symm.trans hpipe')
    exact heq ▸ hactive
  · intro hactive
    exact ⟨_, hactive⟩

theorem replace (h : Queued prio w l) (hpipe : w.pipes p = some pipe)
    (hpipes : w'.pipes = Function.update w.pipes p (some pipe'))
    (hprio : prio pipe' = prio pipe) : Queued prio w' l where
  wf := h.wf
  range q pipe₁ hq := by
    rw [hpipes] at hq
    rcases eq_or_ne q p with rfl | hne
    · rw [Function.update_self] at hq
      obtain rfl := Option.some.inj hq
      rw [hprio]
      exact h.range q pipe hpipe
    · rw [Function.update_of_ne hne] at hq
      exact h.range q pipe₁ hq
  listed d hd := by
    obtain ⟨pipe₁, hpipe₁, heq⟩ := h.listed d hd
    rw [hpipes]
    rcases eq_or_ne d.pipe p with hp | hne
    · rw [hp] at hpipe₁ ⊢
      obtain rfl := Option.some.inj (hpipe.symm.trans hpipe₁)
      exact ⟨pipe', Function.update_self .., hprio.trans heq⟩
    · rw [Function.update_of_ne hne]
      exact ⟨pipe₁, hpipe₁, heq⟩

theorem keep (h : Queued prio w l) (hpipes : w'.pipes = w.pipes) : Queued prio w' l where
  wf := h.wf
  range p pipe hp := h.range p pipe (hpipes ▸ hp)
  listed d hd := by
    rw [hpipes]
    exact h.listed d hd

/-- A list that holds fewer pipes than one that is right. -/
theorem shrink (h : Queued prio w l) (hwf : l'.WF) (hless : ∀ d, l'.Active d → l.Active d) :
    Queued prio w l' where
  wf := hwf
  range := h.range
  listed d hd := h.listed d (hless d hd)

end Queued

namespace Kept

theorem init (dir : Direction) : Kept dir {} .init where
  toQueued := .init dir.prio
  toStaged := by
    have hnone : Priolist.init.Holds = fun _ => False := by
      funext p
      simp [Priolist.Holds]
    rw [hnone]
    exact .init dir

/-- A report about the other direction. -/
theorem other {e : PipeEvent} (h : Kept dir w l) (hr : SocketPipes.Reporting w w' p pipe pipe' e)
    (he : dir.event ≠ e) (hprio : dir.prio pipe' = dir.prio pipe)
    (halike : dir.Alike pipe' pipe) : Kept dir w' l where
  toQueued := h.toQueued.replace hr.was hr.pipes hprio
  toStaged := hr.other h.toStaged he halike

/-- An event of the other direction is taken. -/
theorem took_other {e : PipeEvent} (h : Kept dir w l) (p : Nat) (he : dir.event ≠ e) :
    Kept dir (w.took p e) l where
  toQueued := h.toQueued.keep rfl
  toStaged := h.toStaged.keep rfl fun q => PipeQueues.count_erase_ne (by simp [he])

/-- The event of a pipe puts it into the list, where it is not yet. -/
theorem activate (h : Kept dir w l) (hpending : w.Pending p dir.event) :
    ∃ l', dir.activate (w.took p dir.event) l p = .ok l' ∧ Kept dir (w.took p dir.event) l' := by
  obtain ⟨pipe, hpipe⟩ := Option.isSome_iff_exists.mp hpending.1
  obtain ⟨hlo, hhi⟩ := h.range p pipe hpipe
  have hold : ¬l.Holds p := (h.toStaged.activate hpending (fun _ => Iff.rfl)).1
  have hnew : ¬l.Active ⟨p, dir.prio pipe⟩ := fun hactive => hold ⟨_, hactive⟩
  obtain ⟨l', hcall, hwf, hactive⟩ := Priolist.activate_spec h.wf hnew hlo hhi
  have hholds : ∀ q, l'.Holds q ↔ q = p ∨ l.Holds q := by
    intro q
    constructor
    · intro hq
      obtain ⟨priority, hq⟩ := hq
      refine ((hactive _).mp hq).imp (fun heq => ?_) fun hq => ⟨priority, hq⟩
      exact congrArg PriolistData.pipe heq
    · intro hq
      rcases hq with rfl | hq
      · exact ⟨_, (hactive _).mpr (Or.inl rfl)⟩
      · obtain ⟨priority, hq⟩ := hq
        exact ⟨priority, (hactive _).mpr (Or.inr hq)⟩
  refine ⟨l', ?_, { wf := hwf, range := h.range, listed := ?_, toStaged := ?_ }⟩
  · have hget : (w.took p dir.event).getPipe p = .ok pipe := SocketPipes.getPipe_some hpipe
    rw [Direction.activate, hget, ok_bind]
    exact hcall
  · intro d hd
    rcases (hactive d).mp hd with rfl | hd
    · exact ⟨pipe, hpipe, rfl⟩
    · exact h.listed d hd
  · exact (h.toStaged.activate hpending hholds).2

/-- A pipe that is removed is taken from the list. -/
theorem remove (h : Kept dir w l) (hpipe : w.pipes p = some pipe) :
    dir.remove w l p = .ok (l.rm ⟨p, dir.prio pipe⟩) ∧
      Kept dir (w.setPipe p none) (l.rm ⟨p, dir.prio pipe⟩) := by
  obtain ⟨hwf, hactive⟩ := Priolist.rm_spec h.wf ⟨p, dir.prio pipe⟩
  have hholds : ∀ q, (l.rm ⟨p, dir.prio pipe⟩).Holds q ↔ l.Holds q ∧ q ≠ p := by
    intro q
    constructor
    · intro hq
      obtain ⟨priority, hq⟩ := hq
      obtain ⟨hold, hne⟩ := (hactive _).mp hq
      refine ⟨⟨priority, hold⟩, ?_⟩
      intro hqp
      subst hqp
      have heq := (h.holds_iff hpipe).mp ⟨priority, hold⟩
      obtain ⟨pipe', hpipe', hprio⟩ := h.listed _ hold
      obtain rfl := Option.some.inj (hpipe.symm.trans hpipe')
      exact hne (by rw [hprio])
    · intro hq
      obtain ⟨⟨priority, hold⟩, hne⟩ := hq
      exact ⟨priority, (hactive _).mpr ⟨hold, fun heq => hne (congrArg PriolistData.pipe heq)⟩⟩
  refine ⟨?_, { wf := hwf, range := ?_, listed := ?_, toStaged := ?_ }⟩
  · rw [Direction.remove, SocketPipes.getPipe_some hpipe]
    rfl
  · intro q pipe' hq
    rcases eq_or_ne q p with rfl | hne
    · rw [SocketPipes.setPipe_pipes, Function.update_self] at hq
      exact absurd hq (by simp)
    · rw [SocketPipes.setPipe_pipes, Function.update_of_ne hne] at hq
      exact h.range q pipe' hq
  · intro d hd
    have hne := ((hholds d.pipe).mp ⟨d.priority, hd⟩).2
    rw [SocketPipes.setPipe_pipes, Function.update_of_ne hne]
    exact h.listed d ((hactive d).mp hd).1
  · exact h.toStaged.detach rfl rfl hholds

/-- A new pipe, with a priority that `grid_setsockopt` lets through. -/
theorem attach {sndprio rcvprio : Nat} (h : Kept dir w l)
    (ha : SocketPipes.Attaching w w' p sndprio rcvprio) (hn : w.Named) (hfresh : w.Fresh p)
    (hprio : 1 ≤ dir.prio (SocketPipes.started sndprio rcvprio) ∧
      dir.prio (SocketPipes.started sndprio rcvprio) ≤ 16)
    (hstaged : Staged dir w' l.Holds) : Kept dir w' l where
  wf := h.wf
  range q pipe hq := by
    rw [ha.pipes] at hq
    rcases eq_or_ne q p with rfl | hne
    · rw [Function.update_self] at hq
      obtain rfl := Option.some.inj hq
      exact hprio
    · rw [Function.update_of_ne hne] at hq
      exact h.range q pipe hq
  listed d hd := by
    obtain ⟨pipe, hpipe, heq⟩ := h.listed d hd
    have hne : d.pipe ≠ p := by
      intro hp
      exact hfresh (hn.pipes p pipe (hp ▸ hpipe))
    refine ⟨pipe, ?_, heq⟩
    rw [ha.pipes, Function.update_of_ne hne]
    exact hpipe
  toStaged := hstaged

end Kept

/-- The list tells whether a pipe is ready. -/
theorem Kept.isActive_iff (h : Kept dir w l) : l.isActive = true ↔ ∃ p, l.Holds p := by
  rw [h.wf.isActive_iff]
  constructor
  · intro hd
    obtain ⟨d, hd⟩ := hd
    exact ⟨d.pipe, d.priority, hd⟩
  · intro hp
    obtain ⟨p, priority, hactive⟩ := hp
    exact ⟨_, hactive⟩

/-! ## Receiving -/

/-- A message is taken from the front of a pipe, and nothing else happens. -/
structure Taking (w w' : SocketPipes) (p : Nat) (wire : List UInt8) (pipe pipe' : WirePipe) :
    Prop where
  was : w.pipes p = some pipe
  pipes : w'.pipes = Function.update w.pipes p (some pipe')
  used : w'.used = w.used
  events : w'.events = w.events
  inbox : pipe.session.inbox = wire :: pipe'.session.inbox
  outstate : pipe'.outstate = pipe.outstate
  outbox : pipe'.session.outbox = pipe.session.outbox
  sndprio : pipe'.sndprio = pipe.sndprio

/-- Moving on in the list, which releases a pipe or keeps it. -/
theorem advance_holds (h : Queued prio w l) {d : PriolistData} (hpipe : w.pipes d.pipe = some pipe)
    (hprio : prio pipe = d.priority) (release : Bool) (hget : l.getpipe = .ok (some d)) :
    ∃ l', l.advance release = .ok l' ∧ l'.WF ∧ (∀ e, l'.Active e → l.Active e) ∧
      (∀ q, q ≠ d.pipe → (l'.Holds q ↔ l.Holds q)) ∧ (release = true → ¬l'.Holds d.pipe) ∧
      (release = false → (l'.Holds d.pipe ↔ l.Holds d.pipe)) := by
  obtain ⟨l', hcall, hwf, hactive⟩ := Priolist.advance_spec h.wf release hget
  refine ⟨l', hcall, hwf, fun e he => ((hactive e).mp he).1, ?_, ?_, ?_⟩
  · intro q hq
    constructor
    · intro hold
      obtain ⟨priority, hold⟩ := hold
      exact ⟨priority, ((hactive _).mp hold).1⟩
    · intro hold
      obtain ⟨priority, hold⟩ := hold
      refine ⟨priority, (hactive _).mpr ⟨hold, fun _ heq => hq ?_⟩⟩
      exact congrArg PriolistData.pipe heq
  · intro hrelease hold
    obtain ⟨priority, hold⟩ := hold
    obtain ⟨hold, hne⟩ := (hactive _).mp hold
    obtain ⟨pipe', hpipe', hprio'⟩ := h.listed _ hold
    obtain rfl := Option.some.inj (hpipe.symm.trans hpipe')
    refine hne hrelease ?_
    have heq : priority = d.priority := hprio'.symm.trans hprio
    rw [heq]
  · intro hkeep
    constructor
    · intro hold
      obtain ⟨priority, hold⟩ := hold
      exact ⟨priority, ((hactive _).mp hold).1⟩
    · intro hold
      obtain ⟨priority, hold⟩ := hold
      exact ⟨priority, (hactive _).mpr ⟨hold, fun hrelease => absurd (hkeep.symm.trans hrelease)
        (by simp)⟩⟩

/-- A pipe that is ready gives its oldest message, and stays ready as long as it has more. -/
theorem Staged.take {ready : Nat → Prop} (h : Staged inward w ready) (hready : ready p) :
    ∃ w' wire release pipe pipe', w.recv p = .ok (w', wire, release) ∧
      Taking w w' p wire pipe pipe' ∧ pipe'.rcvprio = pipe.rcvprio ∧
      ∀ ready' : Nat → Prop, (∀ q, q ≠ p → (ready' q ↔ ready q)) →
        (release = true → ¬ready' p) → (release = false → ready' p) →
        Staged inward w' ready' := by
  obtain ⟨pipe, hpipe, ⟨hidle, hne⟩, hcount⟩ := h.of_ready hready
  obtain ⟨wire, rest, hinbox⟩ := List.exists_cons_of_ne_nil hne
  let pipe' : WirePipe := { pipe with
    instate := if rest = [] then .async else .idle
    session := { pipe.session with inbox := rest } }
  refine ⟨w.setPipe p (some pipe'), wire, decide (rest = []), pipe, pipe',
    SocketPipes.recv_ok hpipe hidle hinbox, ⟨hpipe, rfl, rfl, rfl, hinbox, rfl, rfl, rfl⟩, rfl, ?_⟩
  intro ready' hothers hreleased hkept
  refine h.replace rfl (fun _ _ => rfl) hothers ?_
  cases rest with
  | nil => exact .waiting ⟨rfl, rfl⟩ (hreleased rfl) hcount
  | cons next rest => exact .listed ⟨rfl, by simp⟩ (hkept rfl) hcount

/-- There is no pipe to receive from, or a message is taken from one. -/
theorem Kept.fqRecv_spec (h : Kept inward w l) :
    (w.fqRecv l = .ok ((w, l), none) ∧ l.isActive = false) ∨
      ∃ w' l' p wire pipe pipe', w.fqRecv l = .ok ((w', l'), some (p, wire)) ∧
        l.isActive = true ∧ Taking w w' p wire pipe pipe' ∧ Kept inward w' l' := by
  rcases Priolist.getpipe_spec h.wf with ⟨hget, hoff, -⟩ | ⟨c, d, -, -, hget, hon, hactive⟩
  · refine Or.inl ⟨?_, hoff⟩
    rw [SocketPipes.fqRecv, hget]
    rfl
  · have hholds : l.Holds d.pipe := ⟨d.priority, hactive⟩
    obtain ⟨w', wire, release, pipe, pipe', hrecv, htake, hrcvprio, hstaged⟩ :=
      h.toStaged.take hholds
    obtain ⟨pipe₁, hpipe₁, hprio⟩ := h.listed d hactive
    obtain rfl := Option.some.inj (htake.was.symm.trans hpipe₁)
    obtain ⟨l', hadvance, hwf, hless, hothers, hreleased, hkept⟩ :=
      advance_holds h.toQueued htake.was hprio release hget
    refine Or.inr ⟨w', l', d.pipe, wire, pipe, pipe', ?_, hon, htake, ?_⟩
    · rw [SocketPipes.fqRecv, hget, ok_bind]
      simp only [hrecv, ok_bind, hadvance, pure_eq_ok]
    · refine ⟨(h.toQueued.replace htake.was htake.pipes hrcvprio).shrink hwf hless, ?_⟩
      exact hstaged l'.Holds hothers hreleased fun hkeep => (hkept hkeep).mpr hholds

/-! ## Sending -/

/-- A message is given to a pipe, and nothing else happens. -/
structure Giving (w w' : SocketPipes) (p : Nat) (wire : List UInt8) (pipe pipe' : WirePipe) :
    Prop where
  was : w.pipes p = some pipe
  pipes : w'.pipes = Function.update w.pipes p (some pipe')
  used : w'.used = w.used
  events : w'.events = w.events
  outbox : pipe'.session.outbox = pipe.session.outbox ++ [wire]
  instate : pipe'.instate = pipe.instate
  inbox : pipe'.session.inbox = pipe.session.inbox
  rcvprio : pipe'.rcvprio = pipe.rcvprio

/-- A pipe that is ready takes a message and is not ready any more. -/
theorem Staged.give {ready ready' : Nat → Prop} (h : Staged outward w ready) (hready : ready p)
    (hready' : ∀ q, ready' q ↔ ready q ∧ q ≠ p) (msg : Msg) :
    ∃ w' pipe pipe', w.send msg p = .ok (w', true) ∧ Giving w w' p msg.wire pipe pipe' ∧
      pipe'.sndprio = pipe.sndprio ∧ Staged outward w' ready' := by
  obtain ⟨pipe, hpipe, hidle, hcount⟩ := h.of_ready hready
  let pipe' : WirePipe := { pipe with
    outstate := .async
    session := { pipe.session with outbox := pipe.session.outbox ++ [msg.wire] } }
  refine ⟨w.setPipe p (some pipe'), pipe, pipe', SocketPipes.send_ok msg hpipe hidle,
    ⟨hpipe, rfl, rfl, rfl, rfl, rfl, rfl, rfl⟩, rfl, h.replace rfl (fun _ _ => rfl) ?_ ?_⟩
  · intro q hq
    rw [hready']
    exact and_iff_left hq
  · exact .waiting rfl (fun hp => ((hready' p).mp hp).2 rfl) hcount

/-- There is no pipe to send to, or the message is given to one. -/
theorem Kept.lbSend_spec (h : Kept outward w l) (msg : Msg) :
    (w.lbSend msg l = .ok ((w, l), none) ∧ l.isActive = false) ∨
      ∃ w' l' p pipe pipe', w.lbSend msg l = .ok ((w', l'), some p) ∧ l.isActive = true ∧
        Giving w w' p msg.wire pipe pipe' ∧ Kept outward w' l' := by
  rcases Priolist.getpipe_spec h.wf with ⟨hget, hoff, -⟩ | ⟨c, d, -, -, hget, hon, hactive⟩
  · refine Or.inl ⟨?_, hoff⟩
    rw [SocketPipes.lbSend, hget]
    rfl
  · obtain ⟨pipe₁, hpipe₁, hprio⟩ := h.listed d hactive
    obtain ⟨l', hadvance, hwf, hless, hothers, hreleased, -⟩ :=
      advance_holds h.toQueued hpipe₁ hprio true hget
    have hrest : ∀ q, l'.Holds q ↔ l.Holds q ∧ q ≠ d.pipe := by
      intro q
      rcases eq_or_ne q d.pipe with rfl | hq
      · exact ⟨fun hold => absurd hold (hreleased rfl), fun hold => absurd rfl hold.2⟩
      · rw [hothers q hq]
        exact (and_iff_left hq).symm
    obtain ⟨w', pipe, pipe', hsend, hgive, hsndprio, hstaged⟩ :=
      h.toStaged.give ⟨d.priority, hactive⟩ hrest msg
    refine Or.inr ⟨w', l', d.pipe, pipe, pipe', ?_, hon, hgive, ?_, hstaged⟩
    · rw [SocketPipes.lbSend, hget, ok_bind]
      simp only [hsend, ok_bind, hadvance, pure_eq_ok]
    · exact (h.toQueued.replace hgive.was hgive.pipes hsndprio).shrink hwf hless

end GridMq.Protocols
