import GridMq.Survey.Xsurveyor
import Mathlib.Algebra.Order.BigOperators.Group.Finset

set_option autoImplicit false

/-!
# The pipes of a SURVEYOR socket between two events

`Xsurveyor.Inv` relates the states of the pipes to the distributor, the fair queue and
the IN and OUT events that are waiting to be delivered.  Responses stay in the fair queue
until the user asks for them.
-/

namespace GridMq.Survey

open GridMq.Core GridMq.Protocols GridMq.ReqRep

/-- One attached pipe.  `listed` says whether it is in the fair queue, `inPending` and
`outPending` whether its IN and OUT events wait in the queue of the context. -/
structure PipeInv (listed inPending outPending : Prop) (pipe : Pipe (Session (List UInt8))) :
    Prop where
  rcvprio : 1 ≤ pipe.rcvprio ∧ pipe.rcvprio ≤ 16
  inbound : pipe.instate = .async ∧ pipe.session.inbox = [] ∧ ¬listed ∧ ¬inPending ∨
    pipe.instate = .idle ∧ pipe.session.inbox ≠ [] ∧ ¬(listed ∧ inPending)
  outbound : pipe.outstate = .idle ∨ pipe.outstate = .async ∧ ¬outPending

/-- The pipes, the queues and the pending events of a socket. -/
structure Xsurveyor.Inv (inP outP : Nat → Prop) (x : Xsurveyor) : Prop where
  wf : x.inpipes.WF
  attached : ∀ d, x.inpipes.Active d → ∃ pipe, x.pipes d.pipe = some pipe ∧
    d.priority = pipe.rcvprio
  count : x.outpipes.count = x.outpipes.pipes.length
  nodup : x.outpipes.pipes.Nodup
  ready : ∀ p ∈ x.outpipes.pipes, ∃ pipe, x.pipes p = some pipe ∧ pipe.outstate = .idle ∧ ¬outP p
  pipe : ∀ p pipe, x.pipes p = some pipe →
    PipeInv (x.inpipes.Active ⟨p, pipe.rcvprio⟩) (inP p) (outP p) pipe

namespace Xsurveyor

variable {inP outP : Nat → Prop} {x x' : Xsurveyor} {p : Nat}
  {pipe pipe' : Pipe (Session (List UInt8))}

theorem inv_init : Inv (fun _ => False) (fun _ => False) {} where
  wf := Priolist.wf_init
  attached d h := absurd h (Priolist.not_active_init d)
  count := rfl
  nodup := List.nodup_nil
  ready p h := absurd h List.not_mem_nil
  pipe p pipe h := absurd h (by simp)

theorem getPipe_some (h : x.pipes p = some pipe) : x.getPipe p = .ok pipe := by
  simp [getPipe, h]

theorem setPipe_pipes (p q : Nat) (pipe : Option (Pipe (Session (List UInt8)))) :
    (x.setPipe p pipe).pipes q = if q = p then pipe else x.pipes q := rfl

/-- The invariant looks at pending events only through membership. -/
theorem Inv.congr {inP' outP' : Nat → Prop} (h : Inv inP outP x)
    (hin : ∀ p, inP' p ↔ inP p) (hout : ∀ p, outP' p ↔ outP p) : Inv inP' outP' x := by
  obtain rfl : inP' = inP := funext fun p => propext (hin p)
  obtain rfl : outP' = outP := funext fun p => propext (hout p)
  exact h

/-- A pipe of the fair queue is there with its own priority. -/
theorem Inv.eq_of_active (h : Inv inP outP x) {d : PriolistData} (hd : x.inpipes.Active d)
    (hp : x.pipes d.pipe = some pipe) : d = ⟨d.pipe, pipe.rcvprio⟩ := by
  obtain ⟨q, hq, hprio⟩ := h.attached d hd
  obtain rfl := Option.some.inj (hq.symm.trans hp)
  cases d
  simp only at hprio
  rw [hprio]

/-- One pipe replaced, added or removed: the others are as they were. -/
theorem Inv.update {inP' outP' : Nat → Prop} (h : Inv inP outP x)
    (hpipes : ∀ q, q ≠ p → x'.pipes q = x.pipes q) (hwf : x'.inpipes.WF)
    (hcount : x'.outpipes.count = x'.outpipes.pipes.length) (hnodup : x'.outpipes.pipes.Nodup)
    (hlisted : ∀ d, d.pipe ≠ p → (x'.inpipes.Active d ↔ x.inpipes.Active d))
    (hready : ∀ q, q ≠ p → q ∈ x'.outpipes.pipes → q ∈ x.outpipes.pipes)
    (hin : ∀ q, q ≠ p → (inP' q ↔ inP q)) (hout : ∀ q, q ≠ p → (outP' q ↔ outP q))
    (hlistedp : ∀ d, d.pipe = p → x'.inpipes.Active d → ∃ pipe, x'.pipes p = some pipe ∧
      d.priority = pipe.rcvprio)
    (hreadyp : p ∈ x'.outpipes.pipes → ∃ pipe, x'.pipes p = some pipe ∧
      pipe.outstate = .idle ∧ ¬outP' p)
    (hpipe : ∀ pipe, x'.pipes p = some pipe →
      PipeInv (x'.inpipes.Active ⟨p, pipe.rcvprio⟩) (inP' p) (outP' p) pipe) :
    Inv inP' outP' x' where
  wf := hwf
  attached d hd := by
    by_cases hdp : d.pipe = p
    · rw [hdp]
      exact hlistedp d hdp hd
    · rw [hpipes _ hdp]
      exact h.attached d ((hlisted d hdp).mp hd)
  count := hcount
  nodup := hnodup
  ready q hq := by
    by_cases hqp : q = p
    · rw [hqp] at hq ⊢
      exact hreadyp hq
    · rw [hpipes q hqp, propext (hout q hqp)]
      exact h.ready q (hready q hqp hq)
  pipe q pipe hq := by
    by_cases hqp : q = p
    · rw [hqp] at hq ⊢
      exact hpipe pipe hq
    · rw [hpipes q hqp] at hq
      rw [propext (hlisted ⟨q, pipe.rcvprio⟩ hqp), propext (hin q hqp), propext (hout q hqp)]
      exact h.pipe q pipe hq

/-- A pipe in another state, in the same lists. -/
theorem Inv.setPipe {inP' outP' : Nat → Prop} (h : Inv inP outP x) (hp : x.pipes p = some pipe)
    (hprio : pipe'.rcvprio = pipe.rcvprio) (hin : ∀ q, q ≠ p → (inP' q ↔ inP q))
    (hout : ∀ q, q ≠ p → (outP' q ↔ outP q))
    (hready : p ∈ x.outpipes.pipes → pipe'.outstate = .idle ∧ ¬outP' p)
    (hpipe : PipeInv (x.inpipes.Active ⟨p, pipe'.rcvprio⟩) (inP' p) (outP' p) pipe') :
    Inv inP' outP' (x.setPipe p (some pipe')) := by
  refine h.update (p := p) ?_ h.wf h.count h.nodup (fun _ _ => Iff.rfl) (fun _ _ hq => hq) hin
    hout ?_ ?_ ?_
  · intro q hq
    exact if_neg hq
  · intro d hdp hd
    refine ⟨pipe', if_pos rfl, ?_⟩
    obtain ⟨q, hq, hprioq⟩ := h.attached d hd
    rw [hdp] at hq
    obtain rfl := Option.some.inj (hq.symm.trans hp)
    rw [hprioq, hprio]
  · intro hq
    exact ⟨pipe', if_pos rfl, hready hq⟩
  · intro q hq
    obtain rfl := Option.some.inj ((if_pos rfl).symm.trans hq)
    exact hpipe

/-- Replacing a pipe leaves the same pipes attached. -/
theorem setPipe_attached (hp : x.pipes p = some pipe) (q : Nat) :
    (x.setPipe p (some pipe')).pipes q = none ↔ x.pipes q = none := by
  rw [setPipe_pipes]
  split
  · rename_i hq
    simp [hq, hp]
  · exact Iff.rfl

/-! ## Pipes that come and go -/

/-- A new pipe has nothing to receive and can be sent to; its OUT event is raised. -/
theorem add_spec (sndprio : Nat) {rcvprio : Nat} (h : Inv inP outP x) (hnew : x.pipes p = none)
    (hnoin : ¬inP p) (hrcv : 1 ≤ rcvprio ∧ rcvprio ≤ 16) :
    ∃ x', x.add p sndprio rcvprio = .ok x' ∧ Inv inP (fun q => outP q ∨ q = p) x' := by
  have hcall : x.add p sndprio rcvprio = .ok (x.setPipe p (some (Pipe.start
      { sndprio := sndprio, rcvprio := rcvprio, session := {} }))) := by
    simp only [add, gridAssert_pos hrcv, ok_bind, pure_eq_ok]
  have hunlisted : ∀ d, d.pipe = p → ¬x.inpipes.Active d := by
    intro d hdp hd
    obtain ⟨q, hq, -⟩ := h.attached d hd
    rw [hdp, hnew] at hq
    exact absurd hq (by simp)
  have hnotready : p ∉ x.outpipes.pipes := by
    intro hp
    obtain ⟨q, hq, -⟩ := h.ready p hp
    rw [hnew] at hq
    exact absurd hq (by simp)
  refine ⟨_, hcall, h.update (p := p) ?_ h.wf h.count h.nodup (fun _ _ => Iff.rfl)
    (fun _ _ hq => hq) (fun _ _ => Iff.rfl) ?_ ?_ ?_ ?_⟩
  · intro q hq
    exact if_neg hq
  · intro q hq
    simp [hq]
  · intro d hdp hd
    exact absurd hd (hunlisted d hdp)
  · intro hq
    exact absurd hq hnotready
  · intro q hq
    obtain rfl := Option.some.inj ((if_pos rfl).symm.trans hq)
    exact ⟨hrcv, Or.inl ⟨rfl, rfl, hunlisted _ rfl, hnoin⟩, Or.inl rfl⟩

/-- A pipe is removed from both lists. -/
theorem rm_spec (h : Inv inP outP x) (hp : x.pipes p ≠ none) :
    ∃ x', x.rm p = .ok x' ∧ Inv inP outP x' ∧ x'.pipes p = none ∧
      ∀ q, q ≠ p → x'.pipes q = x.pipes q := by
  obtain ⟨pipe, hpipe⟩ := Option.ne_none_iff_exists'.mp hp
  obtain ⟨hwf, hactive⟩ := Priolist.rm_spec h.wf ⟨p, pipe.rcvprio⟩
  obtain ⟨hcount, hnodup, hready⟩ := Dist.rm_count h.count h.nodup p
  have hcall : x.rm p = .ok { x.setPipe p none with
      inpipes := x.inpipes.rm ⟨p, pipe.rcvprio⟩, outpipes := x.outpipes.rm p } := by
    simp only [rm, getPipe_some hpipe, ok_bind, pure_eq_ok]
  refine ⟨_, hcall, h.update (p := p) ?_ hwf hcount hnodup ?_ ?_ (fun _ _ => Iff.rfl)
    (fun _ _ => Iff.rfl) ?_ ?_ ?_, if_pos rfl, fun q hq => if_neg hq⟩
  · intro q hq
    exact if_neg hq
  · intro d hdp
    refine (hactive d).trans (and_iff_left ?_)
    rintro rfl
    exact hdp rfl
  · intro q _ hq
    exact ((hready q).mp hq).1
  · intro d hdp hd
    obtain ⟨hold, hne⟩ := (hactive d).mp hd
    have heq := h.eq_of_active hold (hdp ▸ hpipe)
    rw [hdp] at heq
    exact absurd heq hne
  · intro hq
    exact absurd rfl ((hready p).mp hq).2
  · intro q hq
    exact absurd ((if_pos rfl).symm.trans hq) (by simp)

/-! ## What the transports report -/

/-- A message that arrives raises an IN event if it is the only one of its pipe. -/
theorem receivedMsg_spec (wire : List UInt8) (h : Inv inP outP x) (hp : x.pipes p ≠ none) :
    ∃ x' raised, x.receivedMsg p wire = .ok (x', raised) ∧ (raised = true → ¬inP p) ∧
      Inv (fun q => inP q ∨ raised = true ∧ q = p) outP x' ∧
      ∀ q, x'.pipes q = none ↔ x.pipes q = none := by
  obtain ⟨pipe, hpipe⟩ := Option.ne_none_iff_exists'.mp hp
  obtain ⟨hrcv, hinb, houtb⟩ := h.pipe p pipe hpipe
  have hready : p ∈ x.outpipes.pipes → pipe.outstate = .idle ∧ ¬outP p := by
    intro hin
    obtain ⟨q, hq, hidle⟩ := h.ready p hin
    obtain rfl := Option.some.inj (hq.symm.trans hpipe)
    exact hidle
  rcases hinb with ⟨hasync, hnil, hunlisted, hnoin⟩ | ⟨hidle, hne, hone⟩
  · have hcall : x.receivedMsg p wire = .ok (x.setPipe p (some { pipe with
        instate := .idle, session := { pipe.session with inbox := [wire] } }), true) := by
      simp [receivedMsg, getPipe_some hpipe, Pipe.arrive, hnil, Pipe.received, hasync]
    refine ⟨_, true, hcall, fun _ => hnoin, ?_, setPipe_attached hpipe⟩
    refine h.setPipe hpipe rfl ?_ (fun _ _ => Iff.rfl) hready ?_
    · intro q hq
      simp [hq]
    · exact ⟨hrcv, Or.inr ⟨rfl, by simp, fun hboth => hunlisted hboth.1⟩, houtb⟩
  · have hcall : x.receivedMsg p wire = .ok (x.setPipe p (some { pipe with
        session := { pipe.session with inbox := pipe.session.inbox ++ [wire] } }), false) := by
      simp [receivedMsg, getPipe_some hpipe, Pipe.arrive, hne]
    refine ⟨_, false, hcall, fun hno => absurd hno (by simp), ?_, setPipe_attached hpipe⟩
    refine h.setPipe hpipe rfl ?_ (fun _ _ => Iff.rfl) hready ?_
    · intro q hq
      simp
    · refine ⟨hrcv, Or.inr ⟨hidle, by simp, ?_⟩, houtb⟩
      rintro ⟨hin, hpending | hpending⟩
      · exact hone ⟨hin, hpending⟩
      · exact absurd hpending.1 (by simp)

/-- A message that has left a pipe raises an OUT event. -/
theorem sentMsg_spec (h : Inv inP outP x) (hpipe : x.pipes p = some pipe)
    (hasync : pipe.outstate = .async) :
    ∃ x', x.sentMsg p = .ok (x', true) ∧ ¬outP p ∧ Inv inP (fun q => outP q ∨ q = p) x' ∧
      ∀ q, x'.pipes q = none ↔ x.pipes q = none := by
  obtain ⟨hrcv, hinb, houtb⟩ := h.pipe p pipe hpipe
  have hnoout : ¬outP p := by
    rcases houtb with hidle | ⟨-, hno⟩
    · exact absurd (hidle.symm.trans hasync) (by simp)
    · exact hno
  have hcall : x.sentMsg p = .ok (x.setPipe p (some { pipe with outstate := .idle }), true) := by
    simp [sentMsg, getPipe_some hpipe, Pipe.sent, hasync]
  refine ⟨_, hcall, hnoout, h.setPipe hpipe rfl (fun _ _ => Iff.rfl) ?_ ?_ ?_,
    setPipe_attached hpipe⟩
  · intro q hq
    simp [hq]
  · intro hin
    obtain ⟨q, hq, hidle, -⟩ := h.ready p hin
    obtain rfl := Option.some.inj (hq.symm.trans hpipe)
    exact absurd (hidle.symm.trans hasync) (by simp)
  · exact ⟨hrcv, hinb, Or.inl rfl⟩

/-! ## Events of pipes -/

/-- A pipe that is announced joins the fair queue. -/
theorem xsurveyorIn_spec (h : Inv inP outP x) (hin : inP p) (hp : x.pipes p ≠ none) :
    ∃ x', x.xsurveyorIn p = .ok x' ∧ Inv (fun q => inP q ∧ q ≠ p) outP x' ∧
      x'.pipes = x.pipes := by
  obtain ⟨pipe, hpipe⟩ := Option.ne_none_iff_exists'.mp hp
  obtain ⟨hrcv, hinb, houtb⟩ := h.pipe p pipe hpipe
  obtain ⟨hidle, hne, hone⟩ := hinb.resolve_left fun hasync => hasync.2.2.2 hin
  have hnew : ¬x.inpipes.Active ⟨p, pipe.rcvprio⟩ := fun hlisted => hone ⟨hlisted, hin⟩
  obtain ⟨inpipes, hcall, hwf, hactive⟩ := Priolist.activate_spec h.wf hnew hrcv.1 hrcv.2
  refine ⟨{ x with inpipes := inpipes }, ?_, ?_, rfl⟩
  · simp only [xsurveyorIn, getPipe_some hpipe, ok_bind, hcall, pure_eq_ok]
  · refine h.update (p := p) (fun _ _ => rfl) hwf h.count h.nodup ?_ (fun _ _ hq => hq) ?_
      (fun _ _ => Iff.rfl) ?_ (fun hq => h.ready p hq) ?_
    · intro d hdp
      refine (hactive d).trans (or_iff_right ?_)
      rintro rfl
      exact hdp rfl
    · intro q hq
      simp [hq]
    · intro d hdp hd
      rcases (hactive d).mp hd with rfl | hold
      · exact ⟨pipe, hpipe, rfl⟩
      · rw [← hdp]
        exact h.attached d hold
    · intro q hq
      obtain rfl := Option.some.inj (hpipe.symm.trans hq)
      exact ⟨hrcv, Or.inr ⟨hidle, hne, fun hboth => hboth.2.2 rfl⟩, houtb⟩

/-- A pipe that can be sent to joins the distributor. -/
theorem xsurveyorOut_spec (h : Inv inP outP x) (hout : outP p) (hp : x.pipes p ≠ none) :
    ∃ x', x.xsurveyorOut p = .ok x' ∧ Inv inP (fun q => outP q ∧ q ≠ p) x' ∧
      x'.pipes = x.pipes := by
  obtain ⟨pipe, hpipe⟩ := Option.ne_none_iff_exists'.mp hp
  obtain ⟨hrcv, hinb, houtb⟩ := h.pipe p pipe hpipe
  have hidle : pipe.outstate = .idle := houtb.resolve_right fun hasync => hasync.2 hout
  have hnew : p ∉ x.outpipes.pipes := by
    intro hin
    obtain ⟨q, -, -, hno⟩ := h.ready p hin
    exact hno hout
  refine ⟨{ x with outpipes :=
      { count := x.outpipes.count + 1, pipes := x.outpipes.pipes ++ [p] } }, ?_, ?_, rfl⟩
  · simp only [xsurveyorOut, getPipe_some hpipe, ok_bind, Dist.out, gridAssert_pos hnew,
      pure_eq_ok]
  · refine h.update (p := p) (fun _ _ => rfl) h.wf ?_ ?_ (fun _ _ => Iff.rfl) ?_
      (fun _ _ => Iff.rfl) ?_ ?_ ?_ ?_
    · rw [List.length_append, List.length_singleton, h.count]
    · exact h.nodup.append (List.nodup_singleton p)
        (fun q hq hqp => hnew (List.mem_singleton.mp hqp ▸ hq))
    · intro q hqp hq
      rcases List.mem_append.mp hq with hq | hq
      · exact hq
      · exact absurd (List.mem_singleton.mp hq) hqp
    · intro q hq
      simp [hq]
    · intro d hdp hd
      rw [← hdp]
      exact h.attached d hd
    · intro _
      exact ⟨pipe, hpipe, hidle, fun hboth => hboth.2 rfl⟩
    · intro q hq
      obtain rfl := Option.some.inj (hpipe.symm.trans hq)
      exact ⟨hrcv, hinb, Or.inl hidle⟩

/-! ## Surveys and responses -/

/-- A survey goes to every pipe of the distributor, and each of them is released. -/
theorem send_spec (h : Inv inP outP x) (msg : Msg) :
    ∃ x', x.send msg = .ok x' ∧ Inv inP outP x' ∧ (∀ q, x'.pipes q = none ↔ x.pipes q = none) ∧
      x'.inpipes = x.inpipes := by
  -- the loop, with the pipes that are left
  let J : List Nat → Xsurveyor → Prop := fun rest y =>
    Inv inP outP { y with outpipes := { count := rest.length, pipes := rest } } ∧
      (∀ q, y.pipes q = none ↔ x.pipes q = none) ∧ y.inpipes = x.inpipes
  have hstep : ∀ p rest y, J (p :: rest) y → ∃ y', pipeSend msg y p = .ok (y', true) ∧
      J rest y' := by
    rintro p rest y ⟨hinv, hsame, hlists⟩
    obtain ⟨pipe, hpipe, hidle, hnoout⟩ := hinv.ready p List.mem_cons_self
    have hpipe : y.pipes p = some pipe := hpipe
    obtain ⟨hrcv, hinb, -⟩ := hinv.pipe p pipe hpipe
    have hnodup := List.nodup_cons.mp hinv.nodup
    refine ⟨y.setPipe p (some { pipe with
      outstate := .async
      session := { pipe.session with outbox := pipe.session.outbox ++ [msg.wire] } }), ?_, ?_,
      ?_, hlists⟩
    · simp only [pipeSend, getPipe_some hpipe, ok_bind, Pipe.send_ready hidle, pure_eq_ok]
    · refine hinv.update (p := p) ?_ hinv.wf rfl hnodup.2 (fun _ _ => Iff.rfl) ?_
        (fun _ _ => Iff.rfl) (fun _ _ => Iff.rfl) ?_ ?_ ?_
      · intro q hq
        exact if_neg hq
      · intro q _ hq
        exact List.mem_cons_of_mem p hq
      · intro d hdp hd
        have heq := hinv.eq_of_active hd (hdp ▸ hpipe)
        exact ⟨_, if_pos rfl, congrArg PriolistData.priority heq⟩
      · intro hq
        exact absurd hq hnodup.1
      · intro q hq
        obtain rfl := Option.some.inj ((if_pos rfl).symm.trans hq)
        exact ⟨hrcv, hinb, Or.inr ⟨rfl, hnoout⟩⟩
    · intro q
      exact (setPipe_attached hpipe q).trans (hsame q)
  have hstart : J x.outpipes.pipes x := by
    refine ⟨?_, fun _ => Iff.rfl, rfl⟩
    rw [← h.count]
    exact h
  obtain ⟨x', hcall, hinv, hsame, hlists⟩ := Dist.send_released hstep h.count hstart
  refine ⟨{ x' with outpipes := { count := 0, pipes := [] } }, ?_, hinv, hsame, hlists⟩
  simp only [send, hcall, ok_bind, pure_eq_ok]

theorem mem_listed (h : x.inpipes.WF) {d : PriolistData} :
    d ∈ x.listed ↔ x.inpipes.Active d := by
  rw [listed, List.mem_toFinset, List.mem_flatMap]
  constructor
  · rintro ⟨i, -, hd⟩
    exact h.active_iff.mpr ⟨i, hd⟩
  · intro hd
    obtain ⟨hlow, hhigh⟩ := h.active_range hd
    exact ⟨d.priority - 1, List.mem_range.mpr (by omega), hd⟩

theorem waiting_some (h : x.pipes p = some pipe) : x.waiting p = pipe.session.inbox.length := by
  simp [waiting, h]

/-- Where one pipe of the fair queue has one message less and no pipe joins the queue,
there is less to be read. -/
theorem unread_lt (h : Inv inP outP x) (hwf : x'.inpipes.WF) {d : PriolistData}
    (hd : x.inpipes.Active d) (hless : x'.waiting d.pipe < x.waiting d.pipe)
    (hpipes : ∀ q, q ≠ d.pipe → x'.pipes q = x.pipes q)
    (hlisted : ∀ e, x'.inpipes.Active e → x.inpipes.Active e) : x'.unread < x.unread := by
  have hmem := (mem_listed h.wf).mpr hd
  have hsub : x'.listed ⊆ x.listed := by
    intro e he
    exact (mem_listed h.wf).mpr (hlisted e ((mem_listed hwf).mp he))
  have hsame : ∀ e ∈ x.listed.erase d, x'.waiting e.pipe = x.waiting e.pipe := by
    intro e he
    obtain ⟨hne, he⟩ := Finset.mem_erase.mp he
    have hother : e.pipe ≠ d.pipe := by
      intro heq
      obtain ⟨pipe, hpipe, -⟩ := h.attached d hd
      have hdeq := h.eq_of_active hd hpipe
      have heeq := h.eq_of_active ((mem_listed h.wf).mp he) (heq ▸ hpipe)
      exact hne (by rw [heeq, hdeq, heq])
    rw [waiting, waiting, hpipes _ hother]
  calc x'.unread
      ≤ ∑ e ∈ x.listed, x'.waiting e.pipe := Finset.sum_le_sum_of_subset hsub
    _ = x'.waiting d.pipe + ∑ e ∈ x.listed.erase d, x'.waiting e.pipe :=
        (Finset.add_sum_erase _ (fun e => x'.waiting e.pipe) hmem).symm
    _ = x'.waiting d.pipe + ∑ e ∈ x.listed.erase d, x.waiting e.pipe := by
        rw [Finset.sum_congr rfl hsame]
    _ < x.waiting d.pipe + ∑ e ∈ x.listed.erase d, x.waiting e.pipe :=
        Nat.add_lt_add_right hless _
    _ = x.unread := Finset.add_sum_erase _ (fun e => x.waiting e.pipe) hmem

/-- A pipe gives its oldest message, and stays ready if there are more. -/
theorem recv_ready {wire : List UInt8} {rest : List (List UInt8)} (hidle : pipe.instate = .idle)
    (hinbox : pipe.session.inbox = wire :: rest) :
    ∃ release, pipe.recv sessionVfptr = .ok ({ pipe with
        instate := if rest = [] then .async else .idle
        session := { pipe.session with inbox := rest } }, wire, release) ∧
      (release = true ↔ rest = []) := by
  cases rest with
  | nil =>
      refine ⟨true, ?_, by simp⟩
      simp [Pipe.recv, sessionVfptr, hidle, hinbox]
  | cons next rest =>
      refine ⟨false, ?_, by simp⟩
      simp [Pipe.recv, sessionVfptr, hidle, hinbox, Pipe.received]

/-- The fair queue is empty, or it gives a message and there is one less to be read. -/
theorem fqRecv_spec (h : Inv inP outP x) :
    (x.fqRecv = .ok (x, none) ∧ x.inpipes.isActive = false) ∨
      ∃ x' wire, x.fqRecv = .ok (x', some wire) ∧ Inv inP outP x' ∧ x'.unread < x.unread ∧
        ∀ q, x'.pipes q = none ↔ x.pipes q = none := by
  rcases Priolist.getpipe_spec h.wf with ⟨hnone, hoff, -⟩ | ⟨c, d, -, -, hget, -, hactive⟩
  · refine Or.inl ⟨?_, hoff⟩
    simp only [fqRecv, hnone, ok_bind, pure_eq_ok]
  · obtain ⟨pipe, hpipe, hprio⟩ := h.attached d hactive
    have hdeq := h.eq_of_active hactive hpipe
    obtain ⟨hrcv, hinb, houtb⟩ := h.pipe d.pipe pipe hpipe
    obtain ⟨hidle, hne, hone⟩ := hinb.resolve_left fun hasync => hasync.2.2.1 (hdeq ▸ hactive)
    obtain ⟨wire, rest, hinbox⟩ := List.exists_cons_of_ne_nil hne
    obtain ⟨release, hrecv, hrelease⟩ := recv_ready hidle hinbox
    obtain ⟨inpipes, hadvance, hwf, hlisted⟩ := Priolist.advance_spec h.wf release hget
    -- the state afterwards
    let pipe' : Pipe (Session (List UInt8)) := { pipe with
      instate := if rest = [] then .async else .idle
      session := { pipe.session with inbox := rest } }
    let x' : Xsurveyor := { x.setPipe d.pipe (some pipe') with inpipes := inpipes }
    have hpipe' : x'.pipes d.pipe = some pipe' := if_pos rfl
    have hothers : ∀ q, q ≠ d.pipe → x'.pipes q = x.pipes q := fun q hq => if_neg hq
    have hcall : x.fqRecv = .ok (x', some wire) := by
      simp only [fqRecv, hget, ok_bind, getPipe_some hpipe, hrecv, hadvance, pure_eq_ok]
      rfl
    have hinv : Inv inP outP x' := by
      refine h.update (p := d.pipe) hothers hwf h.count h.nodup ?_ (fun _ _ hq => hq)
        (fun _ _ => Iff.rfl) (fun _ _ => Iff.rfl) ?_ ?_ ?_
      · intro e hep
        refine (hlisted e).trans (and_iff_left ?_)
        rintro - rfl
        exact hep rfl
      · intro e hep he
        have heeq := h.eq_of_active ((hlisted e).mp he).1 (hep ▸ hpipe)
        exact ⟨pipe', hpipe', congrArg PriolistData.priority heeq⟩
      · intro hq
        obtain ⟨q, hq, hqidle⟩ := h.ready d.pipe hq
        obtain rfl := Option.some.inj (hq.symm.trans hpipe)
        exact ⟨pipe', hpipe', hqidle⟩
      · intro q hq
        obtain rfl := Option.some.inj (hpipe'.symm.trans hq)
        refine ⟨hrcv, ?_, houtb⟩
        by_cases hrest : rest = []
        · refine Or.inl ⟨if_pos hrest, hrest, ?_, fun hin => hone ⟨hdeq ▸ hactive, hin⟩⟩
          intro hstill
          exact ((hlisted _).mp hstill).2 (hrelease.mpr hrest) hdeq.symm
        · refine Or.inr ⟨if_neg hrest, hrest, fun hboth => hone ⟨hdeq ▸ hactive, hboth.2⟩⟩
    refine Or.inr ⟨x', wire, hcall, hinv, ?_, ?_⟩
    · refine unread_lt h hwf hactive ?_ hothers (fun e he => ((hlisted e).mp he).1)
      rw [waiting_some hpipe', waiting_some hpipe, hinbox, List.length_cons]
      exact Nat.lt_succ_self _
    · exact fun q => setPipe_attached hpipe q

end Xsurveyor

end GridMq.Survey
