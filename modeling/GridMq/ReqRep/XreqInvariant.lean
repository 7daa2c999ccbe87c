import GridMq.ReqRep.Xreq
import Mathlib.Algebra.Order.BigOperators.Group.List
import Mathlib.Algebra.Order.Group.Nat

set_option autoImplicit false

/-!
# The pipes of a REQ socket between two events

`Xreq.Inv` relates the states of the pipes to the two queues and to the IN and
OUT events that are waiting to be delivered.  The REQ socket empties its fair
queue at every IN event, so the queue holds no pipe between two events, and a
pipe holds a message only while its IN event is on its way.
-/

namespace GridMq.ReqRep

open GridMq.Core GridMq.Protocols

/-- One attached pipe.  `inPending` and `outPending` say whether its IN and OUT
events wait in the queue of the context; `active` is false once the socket is
being closed and drops these events. -/
structure PipeInv (active : Bool) (epoch : Nat) (inPending outPending : Prop)
    (pipe : Pipe (Session Arrival)) : Prop where
  sndprio : 1 ≤ pipe.sndprio ∧ pipe.sndprio ≤ 16
  rcvprio : 1 ≤ pipe.rcvprio ∧ pipe.rcvprio ≤ 16
  inbound : pipe.instate = .async ∧ pipe.session.inbox = [] ∧ ¬ inPending ∨
    pipe.instate = .idle ∧ pipe.session.inbox ≠ [] ∧
      (inPending → ∃ a, pipe.session.inbox = [a] ∧ a.epoch = epoch) ∧
      (active = true → inPending)
  outbound : pipe.outstate = .idle ∨ pipe.outstate = .async ∧ ¬ outPending

/-- The pipes, the queues and the pending events of a socket. -/
structure Xreq.Inv (active : Bool) (epoch : Nat) (inP outP : Nat → Prop) (x : Xreq) :
    Prop where
  lbWF : x.lb.WF
  fqWF : x.fq.WF
  fqEmpty : ∀ d, ¬ x.fq.Active d
  lbActive : ∀ d, x.lb.Active d → ∃ pipe, x.pipes d.pipe = some pipe ∧
    d.priority = pipe.sndprio ∧ pipe.outstate = .idle ∧ ¬ outP d.pipe
  pipe : ∀ p pipe, x.pipes p = some pipe → PipeInv active epoch (inP p) (outP p) pipe

namespace Xreq

variable {active : Bool} {epoch : Nat} {inP outP : Nat → Prop} {x : Xreq}

theorem inv_init : Inv active epoch (fun _ => False) (fun _ => False) {} where
  lbWF := Priolist.wf_init
  fqWF := Priolist.wf_init
  fqEmpty := Priolist.not_active_init
  lbActive d h := absurd h (Priolist.not_active_init d)
  pipe p pipe h := absurd h (by simp)

theorem getPipe_some {p : Nat} {pipe : Pipe (Session Arrival)} (h : x.pipes p = some pipe) :
    x.getPipe p = .ok pipe := by
  simp [getPipe, h]

theorem setPipe_pipes (p q : Nat) (pipe : Option (Pipe (Session Arrival))) :
    (x.setPipe p pipe).pipes q = if q = p then pipe else x.pipes q := rfl

/-- The statistics accept the priority of a well-formed load balancer. -/
theorem statPriority_ok (h : x.lb.WF) : x.statPriority = .ok () := by
  unfold statPriority
  rw [gridAssert_pos]
  unfold Priolist.getPriority
  cases hc : x.lb.current with
  | none => exact Or.inl rfl
  | some c =>
      obtain ⟨h1, hne, -⟩ := h.currentSome c hc
      obtain ⟨d, hd⟩ := List.exists_mem_of_ne_nil _ hne
      have := (h.range (c - 1) d hd).2
      exact Or.inr ⟨by simp only; omega, by simp only; omega⟩

/-- The invariant looks at pending events only through membership. -/
theorem Inv.congr {inP' outP' : Nat → Prop} (h : Inv active epoch inP outP x)
    (hin : ∀ p, inP' p ↔ inP p) (hout : ∀ p, outP' p ↔ outP p) :
    Inv active epoch inP' outP' x := by
  obtain rfl : inP' = inP := funext fun p => propext (hin p)
  obtain rfl : outP' = outP := funext fun p => propext (hout p)
  exact h

/-- Without IN events on their way the user may ask again. -/
theorem Inv.newEpoch {epoch' : Nat} (h : Inv active epoch inP outP x) (hin : ∀ p, ¬ inP p) :
    Inv active epoch' inP outP x where
  lbWF := h.lbWF
  fqWF := h.fqWF
  fqEmpty := h.fqEmpty
  lbActive := h.lbActive
  pipe p pipe hp := by
    obtain ⟨h1, h2, hinb, houtb⟩ := h.pipe p pipe hp
    refine ⟨h1, h2, hinb.imp_right ?_, houtb⟩
    rintro ⟨h3, h4, -, h5⟩
    exact ⟨h3, h4, fun hp => absurd hp (hin p), h5⟩

/-- The socket is being closed. -/
theorem Inv.close (h : Inv active epoch inP outP x) : Inv false epoch inP outP x where
  lbWF := h.lbWF
  fqWF := h.fqWF
  fqEmpty := h.fqEmpty
  lbActive := h.lbActive
  pipe p pipe hp := by
    obtain ⟨h1, h2, hinb, houtb⟩ := h.pipe p pipe hp
    refine ⟨h1, h2, hinb.imp_right ?_, houtb⟩
    rintro ⟨h3, h4, h5, -⟩
    exact ⟨h3, h4, h5, by simp⟩

/-- One pipe replaced or added, together with its pending events. -/
theorem Inv.update {p : Nat} {pipe' : Pipe (Session Arrival)} {inP' outP' : Nat → Prop}
    (h : Inv active epoch inP outP x)
    (hpipe : PipeInv active epoch (inP' p) (outP' p) pipe')
    (hin : ∀ q, q ≠ p → (inP' q ↔ inP q)) (hout : ∀ q, q ≠ p → (outP' q ↔ outP q))
    (hlb : ∀ d, x.lb.Active d → d.pipe = p →
      d.priority = pipe'.sndprio ∧ pipe'.outstate = .idle ∧ ¬ outP' p) :
    Inv active epoch inP' outP' (x.setPipe p (some pipe')) where
  lbWF := h.lbWF
  fqWF := h.fqWF
  fqEmpty := h.fqEmpty
  lbActive d hd := by
    rw [setPipe_pipes]
    split
    · rename_i hdp
      obtain ⟨h1, h2, h3⟩ := hlb d hd hdp
      exact ⟨pipe', rfl, h1, h2, by rwa [hdp]⟩
    · rename_i hdp
      obtain ⟨q, hq, hprio, hidle, hno⟩ := h.lbActive d hd
      exact ⟨q, hq, hprio, hidle, by rwa [hout _ hdp]⟩
  pipe q pipe hq := by
    rw [setPipe_pipes] at hq
    split at hq
    · rename_i hqp
      obtain rfl := Option.some.inj hq
      rw [hqp]
      exact hpipe
    · rename_i hqp
      have hold := h.pipe q pipe hq
      obtain ⟨h1, h2, h3, h4⟩ := hold
      refine ⟨h1, h2, ?_, ?_⟩
      · rw [hin q hqp]
        exact h3
      · rw [hout q hqp]
        exact h4

/-- Replacing a pipe leaves the same pipes attached. -/
theorem setPipe_attached {p : Nat} {pipe pipe' : Pipe (Session Arrival)} (hp : x.pipes p = some pipe)
    (q : Nat) : (x.setPipe p (some pipe')).pipes q = none ↔ x.pipes q = none := by
  rw [setPipe_pipes]
  split
  · rename_i hq
    simp [hq, hp]
  · exact Iff.rfl

/-! ## Pipes that come and go -/

/-- A new pipe has nothing to receive and can be sent to; its OUT event is
raised. -/
theorem add_spec {p sndprio rcvprio : Nat} (h : Inv active epoch inP outP x)
    (hnew : x.pipes p = none) (hnoin : ¬ inP p) (hsnd : 1 ≤ sndprio ∧ sndprio ≤ 16)
    (hrcv : 1 ≤ rcvprio ∧ rcvprio ≤ 16) :
    ∃ x', x.add p sndprio rcvprio = .ok x' ∧
      Inv active epoch inP (fun q => outP q ∨ q = p) x' ∧
      (∀ q, q ≠ p → x'.pipes q = x.pipes q) ∧ x'.pipes p ≠ none ∧ x'.lb = x.lb := by
  have hcall : x.add p sndprio rcvprio = .ok (x.setPipe p (some (Pipe.start
      { sndprio := sndprio, rcvprio := rcvprio, session := {} }))) := by
    simp only [add, gridAssert_pos hsnd, gridAssert_pos hrcv, ok_bind, pure_eq_ok]
  refine ⟨_, hcall, ?_, ?_, ?_, rfl⟩
  · refine h.update ⟨hsnd, hrcv, Or.inl ⟨rfl, rfl, hnoin⟩, Or.inl rfl⟩ (fun _ _ => Iff.rfl)
      (fun q hq => by simp [hq]) ?_
    intro d hd hdp
    obtain ⟨q, hq, -⟩ := h.lbActive d hd
    rw [hdp, hnew] at hq
    exact absurd hq (by simp)
  · intro q hq
    rw [setPipe_pipes, if_neg hq]
  · rw [setPipe_pipes, if_pos rfl]
    simp

/-- A pipe is removed from both queues. -/
theorem rm_spec {p : Nat} (h : Inv active epoch inP outP x) (hp : x.pipes p ≠ none) :
    ∃ x', x.rm p = .ok x' ∧ Inv active epoch inP outP x' ∧ x'.pipes p = none ∧
      (∀ q, q ≠ p → x'.pipes q = x.pipes q) ∧ ∀ d, x'.lb.Active d → x.lb.Active d := by
  obtain ⟨pipe, hpipe⟩ := Option.ne_none_iff_exists'.mp hp
  obtain ⟨hlb, hlbAct⟩ := Priolist.rm_spec h.lbWF ⟨p, pipe.sndprio⟩
  obtain ⟨hfq, hfqAct⟩ := Priolist.rm_spec h.fqWF ⟨p, pipe.rcvprio⟩
  have hstat : ({ x with
      lb := x.lb.rm ⟨p, pipe.sndprio⟩, fq := x.fq.rm ⟨p, pipe.rcvprio⟩ } : Xreq).statPriority =
      .ok () := statPriority_ok hlb
  have hcall : x.rm p = .ok (({ x with
      lb := x.lb.rm ⟨p, pipe.sndprio⟩, fq := x.fq.rm ⟨p, pipe.rcvprio⟩ } : Xreq).setPipe
        p none) := by
    simp only [rm, getPipe_some hpipe, ok_bind, hstat, pure_eq_ok]
  refine ⟨_, hcall, ?_, ?_, ?_, ?_⟩
  · refine ⟨hlb, hfq, fun d hd => h.fqEmpty d ((hfqAct d).mp hd).1, ?_, ?_⟩
    · intro d hd
      obtain ⟨hd, hne⟩ := (hlbAct d).mp hd
      obtain ⟨q, hq, hdp, hidle, hno⟩ := h.lbActive d hd
      refine ⟨q, ?_, hdp, hidle, hno⟩
      rw [setPipe_pipes, if_neg]
      · exact hq
      · intro heq
        refine hne ?_
        rw [heq, hpipe] at hq
        obtain rfl := Option.some.inj hq
        cases d
        simp only at heq hdp
        rw [heq, hdp]
    · intro q pipe' hq
      rw [setPipe_pipes] at hq
      split at hq
      · exact absurd hq (by simp)
      · exact h.pipe q pipe' hq
  · rw [setPipe_pipes, if_pos rfl]
  · intro q hq
    rw [setPipe_pipes, if_neg hq]
  · exact fun d hd => ((hlbAct d).mp hd).1

/-! ## What the transports report -/

/-- A message that arrives, its IN event not being on its way, raises one if it is
the first of its pipe. -/
theorem receivedMsg_spec {p : Nat} {a : Arrival} (h : Inv active epoch inP outP x)
    (hp : x.pipes p ≠ none) (hin : ¬ inP p) (ha : a.epoch = epoch) :
    ∃ x' raised, x.receivedMsg p a = .ok (x', raised) ∧
      Inv active epoch (fun q => inP q ∨ raised = true ∧ q = p) outP x' ∧
      (∀ q, x'.pipes q = none ↔ x.pipes q = none) ∧ x'.lb = x.lb := by
  obtain ⟨pipe, hpipe⟩ := Option.ne_none_iff_exists'.mp hp
  obtain ⟨hsnd, hrcv, hinb, houtb⟩ := h.pipe p pipe hpipe
  have hlb : ∀ d, x.lb.Active d → d.pipe = p →
      d.priority = pipe.sndprio ∧ pipe.outstate = .idle ∧ ¬ outP p := by
    intro d hd hdp
    obtain ⟨q, hq, hprio, hidle, hno⟩ := h.lbActive d hd
    rw [hdp] at hq hno
    obtain rfl := Option.some.inj (hq.symm.trans hpipe)
    exact ⟨hprio, hidle, hno⟩
  rcases hinb with ⟨hasync, hempty, -⟩ | ⟨hidle, hne, -, hact⟩
  · -- the first message: IN is raised
    refine ⟨x.setPipe p (some { pipe with
      instate := .idle, session := { pipe.session with inbox := [a] } }), true, ?_, ?_,
      setPipe_attached hpipe, rfl⟩
    · simp [receivedMsg, getPipe_some hpipe, Pipe.arrive, hempty, Pipe.received, hasync]
    · refine h.update ⟨hsnd, hrcv, Or.inr ⟨rfl, by simp, fun _ => ⟨a, rfl, ha⟩,
        fun _ => Or.inr ⟨rfl, rfl⟩⟩, houtb⟩ (fun q hq => by simp [hq]) (fun _ _ => Iff.rfl) hlb
  · -- more messages on a pipe the closing socket no longer reads
    refine ⟨x.setPipe p (some { pipe with
      session := { pipe.session with inbox := pipe.session.inbox ++ [a] } }), false, ?_, ?_,
      setPipe_attached hpipe, rfl⟩
    · simp [receivedMsg, getPipe_some hpipe, Pipe.arrive, hne]
    · refine Inv.congr (@Inv.update _ _ _ _ _ _ _ inP outP h ⟨hsnd, hrcv,
        Or.inr ⟨hidle, by simp, fun hp => absurd hp hin, hact⟩, houtb⟩
        (fun _ _ => Iff.rfl) (fun _ _ => Iff.rfl) hlb) (by simp) (fun _ => Iff.rfl)

/-- A sent message raises an OUT event. -/
theorem sentMsg_spec {p : Nat} {pipe : Pipe (Session Arrival)} (h : Inv active epoch inP outP x)
    (hp : x.pipes p = some pipe) (hasync : pipe.outstate = .async) :
    ∃ x', x.sentMsg p = .ok (x', true) ∧ ¬ outP p ∧
      Inv active epoch inP (fun q => outP q ∨ q = p) x' ∧
      (∀ q, x'.pipes q = none ↔ x.pipes q = none) ∧ x'.lb = x.lb := by
  obtain ⟨hsnd, hrcv, hinb, houtb⟩ := h.pipe p pipe hp
  have hno : ¬ outP p := by
    rcases houtb with hidle | h
    · rw [hasync] at hidle
      exact absurd hidle (by simp)
    · exact h.2
  refine ⟨x.setPipe p (some { pipe with outstate := .idle }), ?_, hno, ?_,
    setPipe_attached hp, rfl⟩
  · simp [sentMsg, getPipe_some hp, Pipe.sent, hasync]
  · refine h.update ⟨hsnd, hrcv, hinb, Or.inl rfl⟩ (fun _ _ => Iff.rfl)
      (fun q hq => by simp [hq]) ?_
    intro d hd hdp
    obtain ⟨q, hq, -, hidle, -⟩ := h.lbActive d hd
    rw [hdp] at hq
    obtain rfl := Option.some.inj (hq.symm.trans hp)
    rw [hasync] at hidle
    exact absurd hidle (by simp)

/-! ## Events delivered to the socket -/

/-- An IN event the closing socket drops. -/
theorem Inv.drop_in {p : Nat} (h : Inv false epoch inP outP x) :
    Inv false epoch (fun q => inP q ∧ q ≠ p) outP x where
  lbWF := h.lbWF
  fqWF := h.fqWF
  fqEmpty := h.fqEmpty
  lbActive := h.lbActive
  pipe q pipe hq := by
    obtain ⟨h1, h2, h3, h4⟩ := h.pipe q pipe hq
    exact ⟨h1, h2, h3.imp (fun h => ⟨h.1, h.2.1, fun hin => h.2.2 hin.1⟩)
      (fun h => ⟨h.1, h.2.1, fun hin => h.2.2.1 hin.1, fun hf => absurd hf (by simp)⟩), h4⟩

/-- An OUT event the closing socket drops. -/
theorem Inv.drop_out {p : Nat} (h : Inv active epoch inP outP x) :
    Inv active epoch inP (fun q => outP q ∧ q ≠ p) x where
  lbWF := h.lbWF
  fqWF := h.fqWF
  fqEmpty := h.fqEmpty
  lbActive d hd := by
    obtain ⟨q, hq, hdp, hidle, hno⟩ := h.lbActive d hd
    exact ⟨q, hq, hdp, hidle, fun hout => hno hout.1⟩
  pipe q pipe hq := by
    obtain ⟨h1, h2, h3, h4⟩ := h.pipe q pipe hq
    exact ⟨h1, h2, h3, h4.imp_right fun h => ⟨h.1, fun hout => h.2 hout.1⟩⟩

/-- The OUT event of a pipe makes it available to the load balancer. -/
theorem xreqOut_spec {p : Nat} (h : Inv active epoch inP outP x) (hout : outP p)
    (hp : x.pipes p ≠ none) :
    ∃ x', x.xreqOut p = .ok x' ∧ Inv active epoch inP (fun q => outP q ∧ q ≠ p) x' ∧
      x'.lb.isActive = true ∧ ∀ q, x'.pipes q = x.pipes q := by
  obtain ⟨pipe, hpipe⟩ := Option.ne_none_iff_exists'.mp hp
  obtain ⟨hsnd, hrcv, hinb, houtb⟩ := h.pipe p pipe hpipe
  have hidle : pipe.outstate = .idle := houtb.resolve_right fun h => h.2 hout
  have hnew : ¬ x.lb.Active ⟨p, pipe.sndprio⟩ := by
    intro hact
    obtain ⟨-, -, -, -, hno⟩ := h.lbActive _ hact
    exact hno hout
  obtain ⟨lb, hlb, hwf, hlbAct⟩ :=
    Priolist.activate_spec h.lbWF hnew (d := ⟨p, pipe.sndprio⟩) hsnd.1 hsnd.2
  have hstat : ({ x with lb := lb } : Xreq).statPriority = .ok () := statPriority_ok hwf
  refine ⟨{ x with lb := lb }, ?_, ?_, ?_, fun _ => rfl⟩
  · simp only [xreqOut, getPipe_some hpipe, ok_bind, hlb, hstat, pure_eq_ok]
  · have hdrop := h.drop_out (p := p)
    refine ⟨hwf, h.fqWF, h.fqEmpty, ?_, hdrop.pipe⟩
    intro d hd
    rcases (hlbAct d).mp hd with rfl | hd
    · exact ⟨pipe, hpipe, rfl, hidle, fun hq => hq.2 rfl⟩
    · exact hdrop.lbActive d hd
  · exact hwf.isActive_iff.mpr ⟨_, (hlbAct _).mpr (Or.inl rfl)⟩

/-- Sending takes a pipe of the load balancer and releases it; without one
nothing changes. -/
theorem sendTo_spec (h : Inv active epoch inP outP x) (msg : Msg) :
    (x.sendTo msg = .ok (x, none) ∧ x.lb.isActive = false) ∨
      ∃ x' p, x.sendTo msg = .ok (x', some p) ∧ x.lb.isActive = true ∧
        Inv active epoch inP outP x' ∧ x'.pipes p ≠ none ∧
        ∀ q, x'.pipes q = none ↔ x.pipes q = none := by
  rcases Priolist.getpipe_spec h.lbWF with ⟨hnone, hoff, -⟩ | ⟨c, d, -, -, hsome, hon, hact⟩
  · refine Or.inl ⟨?_, hoff⟩
    simp [sendTo, hnone]
  · refine Or.inr ?_
    obtain ⟨pipe, hpipe, hdp, hidle, hno⟩ := h.lbActive d hact
    obtain ⟨hsnd, hrcv, hinb, houtb⟩ := h.pipe d.pipe pipe hpipe
    obtain ⟨lb, hlb, hwf, hlbAct⟩ := Priolist.advance_spec h.lbWF true hsome
    have hsend : pipe.send sessionVfptr msg = .ok ({ pipe with
        outstate := .async, session :=
          { pipe.session with outbox := pipe.session.outbox ++ [msg.wire] } }, true) := by
      simp [Pipe.send, sessionVfptr, hidle]
    refine ⟨{ x.setPipe d.pipe (some { pipe with
        outstate := .async, session :=
          { pipe.session with outbox := pipe.session.outbox ++ [msg.wire] } }) with lb := lb },
      d.pipe, ?_, hon, ?_, ?_, ?_⟩
    · simp [sendTo, hsome, getPipe_some hpipe, hsend, hlb]
    · refine ⟨hwf, h.fqWF, h.fqEmpty, ?_, ?_⟩
      · intro e he
        obtain ⟨he, hne⟩ := (hlbAct e).mp he
        obtain ⟨q, hq, hep, heidle, heno⟩ := h.lbActive e he
        refine ⟨q, ?_, hep, heidle, heno⟩
        change (x.setPipe _ _).pipes _ = _
        rw [setPipe_pipes, if_neg]
        · exact hq
        · intro heq
          refine hne rfl ?_
          rw [heq, hpipe] at hq
          obtain rfl := Option.some.inj hq
          cases e
          cases d
          simp only at heq hdp hep
          rw [heq, hdp, hep]
      · intro q pipe' hq
        change (x.setPipe _ _).pipes _ = _ at hq
        rw [setPipe_pipes] at hq
        split at hq
        · rename_i hqp
          subst q
          obtain rfl := Option.some.inj hq
          exact ⟨hsnd, hrcv, hinb, Or.inr ⟨rfl, hno⟩⟩
        · exact h.pipe q pipe' hq
    · change (x.setPipe _ _).pipes _ ≠ _
      simp [setPipe_pipes]
    · intro q
      change (x.setPipe _ _).pipes _ = _ ↔ _
      rw [setPipe_pipes]
      split
      · rename_i hq
        simp [hq, hpipe]
      · exact Iff.rfl

/-- With an empty fair queue there is nothing to receive. -/
theorem fqRecv_empty (hwf : x.fq.WF) (hempty : ∀ d, ¬ x.fq.Active d) :
    x.fqRecv = .ok (x, none) := by
  rcases Priolist.getpipe_spec hwf with ⟨hnone, -, -⟩ | ⟨c, d, -, -, -, -, hact⟩
  · simp [fqRecv, hnone]
  · exact absurd hact (hempty d)

/-- A pipe of the fair queue adds its messages to those that are unread. -/
theorem le_unread {d : PriolistData} {pipe : Pipe (Session Arrival)} (hwf : x.fq.WF)
    (hact : x.fq.Active d) (hpipe : x.pipes d.pipe = some pipe) :
    pipe.session.inbox.length ≤ x.unread := by
  unfold unread
  refine List.single_le_sum (by simp) _ (List.mem_map.mpr ⟨d, ?_, by rw [hpipe]⟩)
  obtain ⟨h1, h2⟩ := hwf.active_range hact
  exact List.mem_flatMap.mpr ⟨d.priority - 1, List.mem_range.mpr (by omega), hact⟩

/-- The IN event of a pipe of an open socket: the pipe is the only one in the
fair queue, its one message is received, and the queue is empty again. -/
theorem xreqIn_spec {p : Nat} (h : Inv true epoch inP outP x) (hin : inP p)
    (hp : x.pipes p ≠ none) :
    ∃ x₁ x₂ a pipe, x.pipes p = some pipe ∧ pipe.session.inbox = [a] ∧ a.epoch = epoch ∧
      x.xreqIn p = .ok x₁ ∧ 1 ≤ x₁.unread ∧ x₁.fqRecv = .ok (x₂, some a) ∧
      x₂.fqRecv = .ok (x₂, none) ∧
      Inv true epoch (fun q => inP q ∧ q ≠ p) outP x₂ ∧
      (∀ q, x₂.pipes q = none ↔ x.pipes q = none) ∧ x₂.lb = x.lb := by
  obtain ⟨pipe, hpipe⟩ := Option.ne_none_iff_exists'.mp hp
  obtain ⟨hsnd, hrcv, hinb, houtb⟩ := h.pipe p pipe hpipe
  obtain ⟨hidle, -, hone, -⟩ := hinb.resolve_left fun h => h.2.2 hin
  obtain ⟨a, hbox, hepoch⟩ := hone hin
  obtain ⟨fq₁, hfq₁, hwf₁, hact₁⟩ := Priolist.activate_spec h.fqWF
    (h.fqEmpty ⟨p, pipe.rcvprio⟩) hrcv.1 hrcv.2
  have hact₁ : ∀ e, fq₁.Active e ↔ e = ⟨p, pipe.rcvprio⟩ :=
    fun e => (hact₁ e).trans (or_iff_left (h.fqEmpty e))
  have hget : fq₁.getpipe = .ok (some ⟨p, pipe.rcvprio⟩) := by
    rcases Priolist.getpipe_spec hwf₁ with ⟨-, -, hno⟩ | ⟨-, d, -, -, hsome, -, hd⟩
    · exact absurd ((hact₁ _).mpr rfl) (hno _)
    · rw [hsome, (hact₁ d).mp hd]
  obtain ⟨fq₂, hfq₂, hwf₂, hact₂⟩ := Priolist.advance_spec hwf₁ true hget
  have hempty₂ : ∀ e, ¬ fq₂.Active e := by
    intro e he
    obtain ⟨he, hne⟩ := (hact₂ e).mp he
    exact hne rfl ((hact₁ e).mp he)
  have hrecv : pipe.recv sessionVfptr = .ok ({ pipe with
      instate := .async, session := { pipe.session with inbox := [] } }, a, true) := by
    simp [Pipe.recv, sessionVfptr, hidle, hbox]
  have hinv₂ : Inv true epoch (fun q => inP q ∧ q ≠ p) outP (x.setPipe p (some { pipe with
      instate := .async, session := { pipe.session with inbox := [] } })) := by
    refine h.update ⟨hsnd, hrcv, Or.inl ⟨rfl, rfl, fun hq => hq.2 rfl⟩, houtb⟩
      (fun q hq => by simp [hq]) (fun _ _ => Iff.rfl) ?_
    intro d hd hdp
    obtain ⟨q, hq, hprio, hqidle, hno⟩ := h.lbActive d hd
    rw [hdp] at hq hno
    obtain rfl := Option.some.inj (hq.symm.trans hpipe)
    exact ⟨hprio, hqidle, hno⟩
  refine ⟨{ x with fq := fq₁ }, { x.setPipe p (some { pipe with
      instate := .async, session := { pipe.session with inbox := [] } }) with fq := fq₂ },
    a, pipe, hpipe, hbox, hepoch, ?_, ?_, ?_, fqRecv_empty hwf₂ hempty₂, ?_,
    setPipe_attached hpipe, rfl⟩
  · simp only [xreqIn, getPipe_some hpipe, ok_bind, hfq₁, pure_eq_ok]
  · have := le_unread (x := { x with fq := fq₁ }) hwf₁ ((hact₁ _).mpr rfl) hpipe
    rw [hbox] at this
    exact this
  · have hpipe₁ : ({ x with fq := fq₁ } : Xreq).pipes p = some pipe := hpipe
    simp only [fqRecv, hget, ok_bind, getPipe_some hpipe₁, hrecv, hfq₂, pure_eq_ok]
    rfl
  · exact ⟨hinv₂.lbWF, hwf₂, hempty₂, hinv₂.lbActive, hinv₂.pipe⟩

end Xreq

end GridMq.ReqRep
