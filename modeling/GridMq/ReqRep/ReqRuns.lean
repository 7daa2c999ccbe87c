import GridMq.Library.Transition
import GridMq.ReqRep.ReqSteps

set_option autoImplicit false

/-!
# Runs of a REQ socket

What holds in every state a REQ socket can reach, whatever the user, the peers, the
worker and the closing of the socket do and in whatever order.

The machine itself is sound: it never meets an event it is not prepared for, and no
reply is left unread.  The slot for the reply is not.  A message that comes in while
`task.reply` holds an accepted reply is received over it, and a message that was
dropped is terminated once more when the socket is closed.
-/

namespace GridMq.ReqRep

open GridMq.Core GridMq.Protocols GridMq.Aio GridMq.Library

namespace Req

/-- The REQ socket as a transition system. -/
def system : System Req Label where
  init s := ∃ lastid, s = Req.init lastid
  step s l s' := Enabled s l ∧ ∃ r, s.next l = .ok (s', r)

theorem inv_init (lastid : Nat) : Inv (Req.init lastid) where
  idLt := Nat.mod_lt _ (by decide)
  raised := List.nodup_nil
  net := Xreq.inv_init.congr (fun _ => ⟨fun h => absurd h List.not_mem_nil, False.elim⟩)
    (fun _ => ⟨fun h => absurd h List.not_mem_nil, False.elim⟩)
  machine := ⟨rfl, List.not_mem_nil, ⟨Timer.quiet_default, noTimer_nil⟩, rfl⟩
  request _ := rfl

/-- A step that was taken kept the invariant and had one of the effects. -/
theorem Inv.step {s s' : Req} {l : Label} (h : Inv s) (hstep : system.step s l s') :
    Inv s' ∧ Effect s l s' ∧ ((∀ ivl, l ≠ .setResendIvl ivl) → s'.resendIvl = s.resendIvl) := by
  obtain ⟨hl, r, hnext⟩ := hstep
  rcases step_spec h hl with ⟨s₁, r₁, hok, hinv, heff, hivl⟩ | ⟨herr, -⟩ | ⟨herr, -⟩
  · obtain ⟨rfl, -⟩ := Prod.mk.inj (Except.ok.inj (hnext.symm.trans hok))
    exact ⟨hinv, heff, hivl⟩
  · exact absurd (hnext.symm.trans herr) (by simp)
  · exact absurd (hnext.symm.trans herr) (by simp)

theorem inv_reachable {s : Req} (h : system.Reachable s) : Inv s := by
  refine h.invariant ?_ ?_
  · rintro s ⟨lastid, rfl⟩
    exact inv_init lastid
  · exact fun s l s' _ hinv hstep => (hinv.step hstep).1

/-! ## Computing a run -/

/-- A check for `Enabled`, up to the end of the endpoints. -/
def ready (s : Req) : Label → Bool
  | .notify _ => s.sock != .fini
  | .deliver => s.events != []
  | .csend _ | .crecv | .setResendIvl _ | .close => s.sock == .active && s.events == []
  | .workerTask => s.timer.tasks != [] && s.events == []
  | .workerTimeout => s.timer.armed && s.events == []
  | .epsStopped => false

theorem enabled_of_ready {s : Req} {l : Label} (h : s.ready l = true) : Enabled s l := by
  cases l <;> simp_all [ready, Enabled]

/-- A step that meets the condition `ok`. -/
def attempt (ok : Req → Label → Bool) (s : Req) (l : Label) : Option Req :=
  if s.ready l && ok s l then
    match s.next l with
    | .ok r => some r.1
    | .error _ => none
  else none

theorem attempt_spec {G : Req → Label → Prop} {ok : Req → Label → Bool}
    (hG : ∀ s l, ok s l = true → G s l) (s : Req) (l : Label) (s' : Req)
    (h : attempt ok s l = some s') : (system.restrict G).step s l s' := by
  unfold attempt at h
  split at h
  · rename_i hready
    rw [Bool.and_eq_true] at hready
    split at h
    · rename_i r hnext
      obtain rfl := Option.some.inj h
      exact ⟨hG s l hready.2, enabled_of_ready hready.1, r.2, hnext⟩
    · exact absurd h (by simp)
  · exact absurd h (by simp)

/-- The state after a run whose steps meet the condition. -/
def after (G : Req → Label → Prop) [∀ s l, Decidable (G s l)] (labels : List Label) :
    Option Req :=
  System.follow (attempt fun s l => decide (G s l)) (Req.init 0) labels

theorem reachable_after {G : Req → Label → Prop} [∀ s l, Decidable (G s l)]
    {labels : List Label} {s : Req} (h : after G labels = some s) :
    (system.restrict G).Reachable s :=
  System.Reachable.follow (attempt_spec fun _ _ hG => of_decide_eq_true hG)
    (.start ⟨0, rfl⟩) h

/-- What a receive answers after a run. -/
theorem crecv_after {G : Req → Label → Prop} [∀ s l, Decidable (G s l)] {labels : List Label}
    {rc : Result}
    (h : (after G labels).map (fun s => (s.sock, s.events, s.crecv.toOption.map Prod.snd)) =
      some (.active, [], some rc)) :
    ∃ s s', after G labels = some s ∧ Enabled s .crecv ∧ s.next .crecv = .ok (s', rc) := by
  obtain ⟨s, hs, heq⟩ := Option.map_eq_some_iff.mp h
  obtain ⟨hsock, heq⟩ := Prod.mk.inj heq
  obtain ⟨hev, hrc⟩ := Prod.mk.inj heq
  obtain ⟨⟨s', rc'⟩, hopt, rfl⟩ := Option.map_eq_some_iff.mp hrc
  refine ⟨s, s', hs, ⟨hsock, hev⟩, ?_⟩
  change s.crecv = _
  cases hc : s.crecv with
  | error e => simp [hc, Except.toOption] at hopt
  | ok r =>
      rw [hc] at hopt
      exact congrArg Except.ok (Option.some.inj hopt)

/-- A pipe is attached, the request 1 is sent on it, and its reply arrives. -/
def replied : List Label :=
  [.notify (.start 1 defaultPriority defaultPriority), .deliver, .deliver, .csend [97],
    .notify (.received 1 (putl (setTopBit 1) ++ [98])), .deliver, .deliver]

/-- The timer stops and the reply can be received. -/
def timerStops : List Label := [.workerTask, .workerTask, .deliver]

/-- A message that is too short for a reply arrives. -/
def malformed : List Label := [.notify (.received 1 [0]), .deliver, .deliver]

/-! ## The state machine -/

/-- What the state says about the request, the resend timer and the load balancer. -/
structure Consistent (s : Req) : Prop where
  sentTo : s.sentTo ≠ none → s.state = .active
  running : s.timer.fsm = .active → s.state = .active
  stopping : s.state = .timedOut ∨ s.state = .cancelling ∨ s.state = .stoppingTimer →
    s.timer.fsm ≠ .active ∧ s.timer.isIdle s.stoppedActive = false
  idle : s.state = .passive ∨ s.state = .delayed ∨ s.state = .done →
    s.timer.isIdle s.stoppedActive = true
  delayed : s.state = .delayed → s.xreq.lb.isActive = false

theorem TimerStopping.not_idle {s : Req} (h : TimerStopping s) :
    s.timer.fsm ≠ .active ∧ s.timer.isIdle s.stoppedActive = false := by
  rcases h with ⟨hs, -⟩ | ⟨hq, rest, hev, -⟩
  · simp [hs.1, Timer.isIdle]
  · simp [hq.1, Timer.isIdle, stoppedActive, hev]

theorem StateInv.consistent {s : Req} (h : StateInv s) : Consistent s := by
  unfold StateInv at h
  cases hst : s.state with
  | idle => simp only [hst] at h
  | stopping => simp only [hst] at h
  | passive | done =>
      simp only [hst] at h
      exact ⟨fun hs => absurd h.2 hs, fun hf => absurd (h.1.1.1.symm.trans hf) (by simp),
        by simp [hst], fun _ => h.1.isIdle, by simp [hst]⟩
  | delayed =>
      simp only [hst] at h
      exact ⟨fun hs => absurd h.2.1 hs, fun hf => absurd (h.1.1.1.symm.trans hf) (by simp),
        by simp [hst], fun _ => h.1.isIdle, fun _ => h.2.2⟩
  | active => exact ⟨fun _ => hst, fun _ => hst, by simp [hst], by simp [hst], by simp [hst]⟩
  | timedOut | cancelling | stoppingTimer =>
      simp only [hst] at h
      exact ⟨fun hs => absurd h.2 hs, fun hf => absurd hf h.1.not_idle.1,
        fun _ => h.1.not_idle, by simp [hst], by simp [hst]⟩

theorem Inv.consistent {s : Req} (h : Inv s) : Consistent s := by
  have hm := h.machine
  unfold MachineInv at hm
  cases hsock : s.sock with
  | active | stoppingEps =>
      simp only [hsock] at hm
      exact hm.2.2.consistent
  | stopping =>
      simp only [hsock] at hm
      obtain ⟨-, hsent, ⟨-, hst, hstop, -⟩ | ⟨-, hst, hidle, -⟩⟩ := hm
      · exact ⟨fun hs => absurd hsent hs, fun hf => absurd hf hstop.not_idle.1,
          by simp [hst], by simp [hst], by simp [hst]⟩
      · exact ⟨fun hs => absurd hsent hs, fun hf => absurd (hidle.1.1.symm.trans hf) (by simp),
          by simp [hst], by simp [hst], by simp [hst]⟩
  | fini =>
      simp only [hsock] at hm
      obtain ⟨-, hsent, hst, hidle, -⟩ := hm
      exact ⟨fun hs => absurd hsent hs, fun hf => absurd (hidle.1.1.symm.trans hf) (by simp),
        by simp [hst], by simp [hst], by simp [hst]⟩

/-- The resend interval is only set to values that are not negative. -/
def NonNegative (_ : Req) (l : Label) : Prop := ∀ ivl, l = .setResendIvl ivl → 0 ≤ ivl

instance (s : Req) (l : Label) : Decidable (NonNegative s l) :=
  match l with
  | .setResendIvl ivl => decidable_of_iff (0 ≤ ivl)
      ⟨fun h _ heq => Label.setResendIvl.inj heq ▸ h, fun h => h ivl rfl⟩
  | .notify _ | .deliver | .csend _ | .crecv | .workerTask | .workerTimeout | .close
  | .epsStopped => isTrue fun _ heq => nomatch heq

theorem resendIvl_nonneg {s : Req} (h : (system.restrict NonNegative).Reachable s) :
    0 ≤ s.resendIvl := by
  refine h.invariant (P := fun s => 0 ≤ s.resendIvl) ?_ ?_
  · rintro s ⟨lastid, rfl⟩
    exact Int.le.intro 60000 rfl
  · rintro s l s' hs hnonneg ⟨hivl, hstep⟩
    have hinv := inv_reachable hs.of_restrict
    cases l with
    | setResendIvl ivl =>
        obtain ⟨-, r, hnext⟩ := hstep
        obtain ⟨rfl, -⟩ := Prod.mk.inj (Except.ok.inj hnext)
        exact hivl ivl rfl
    | _ =>
        rw [(hinv.step hstep).2.2 (by simp)]
        exact hnonneg

/-- In every state of a run with non-negative resend intervals the state machine, the
timer and the load balancer agree, and every step that can be taken is taken.  What
ends the process is at most an event of a pipe that was removed before the event was
delivered, which the raw socket follows. -/
theorem total {s : Req} (h : (system.restrict NonNegative).Reachable s) :
    Consistent s ∧ ∀ l, Enabled s l →
      (∃ s' r, s.next l = .ok (s', r)) ∨ s.next l = .error .nullPointer ∧ Dangling s l := by
  have hinv := inv_reachable h.of_restrict
  refine ⟨hinv.consistent, fun l hl => ?_⟩
  rcases step_spec hinv hl with ⟨s', r, hok, -⟩ | ⟨-, hneg⟩ | herr
  · exact Or.inl ⟨s', r, hok⟩
  · have := resendIvl_nonneg h
    omega
  · exact Or.inr herr

theorem total_replied : ∃ s, after NonNegative replied = some s ∧ Consistent s ∧
    ∀ l, Enabled s l →
      (∃ s' r, s.next l = .ok (s', r)) ∨ s.next l = .error .nullPointer ∧ Dangling s l := by
  have hsome : (after NonNegative replied).isSome = true := by decide +kernel
  obtain ⟨s, hs⟩ := Option.isSome_iff_exists.mp hsome
  exact ⟨s, hs, total (reachable_after hs)⟩

/-! ## Replies are read -/

/-- No pipe of the fair queue holds a message between two events, and a message that
has not been read is announced by an event.  Once all events are delivered, every
message that has arrived was looked at. -/
theorem no_unread {s : Req} (h : system.Reachable s) :
    (∀ d pipe, s.xreq.fq.Active d → s.xreq.pipes d.pipe = some pipe →
      pipe.session.inbox = []) ∧
    (s.sock = .active → ∀ p pipe, s.xreq.pipes p = some pipe →
      pipe.session.inbox ≠ [] → .pipeIn p ∈ s.events) ∧
    (s.sock = .active → s.events = [] → ∀ p pipe, s.xreq.pipes p = some pipe →
      pipe.session.inbox = []) := by
  have hnet := (inv_reachable h).net
  have hannounced : s.sock = .active → ∀ p pipe, s.xreq.pipes p = some pipe →
      pipe.session.inbox ≠ [] → .pipeIn p ∈ s.events := by
    intro hsock p pipe hpipe hne
    rcases (hnet.pipe p pipe hpipe).inbound with ⟨-, hempty, -⟩ | ⟨-, -, -, hin⟩
    · exact absurd hempty hne
    · exact hin (by simp [hsock])
  refine ⟨fun d pipe hd _ => absurd hd (hnet.fqEmpty d), hannounced, ?_⟩
  intro hsock hev p pipe hpipe
  by_contra hne
  exact List.not_mem_nil (hev ▸ hannounced hsock p pipe hpipe hne)

theorem no_unread_replied : ∃ s, after (fun _ _ => True) replied = some s ∧
    s.state = .stoppingTimer ∧ ∀ p pipe, s.xreq.pipes p = some pipe → pipe.session.inbox = [] := by
  have hrun : (after (fun _ _ => True) replied).map
      (fun s => (s.state, s.sock, s.events)) = some (.stoppingTimer, .active, []) := by
    decide +kernel
  obtain ⟨s, hs, heq⟩ := Option.map_eq_some_iff.mp hrun
  obtain ⟨hst, heq⟩ := Prod.mk.inj heq
  obtain ⟨hsock, hev⟩ := Prod.mk.inj heq
  exact ⟨s, hs, hst, (no_unread (reachable_after hs).of_restrict).2.2 hsock hev⟩

/-! ## The reply that is handed over -/

instance (state : ReqState) : Decidable (HoldsReply state) :=
  inferInstanceAs (Decidable (_ ∨ _))

/-- No message that does not answer the request is received while `task.reply` holds an
accepted reply. -/
def KeepsReply (s : Req) (l : Label) : Prop :=
  l = .deliver → HoldsReply s.state → ∀ a, s.examinedNext = some a → s.Matches a.wire

instance (s : Req) (l : Label) : Decidable (KeepsReply s l) :=
  decidable_of_iff (l = .deliver → HoldsReply s.state → ∀ a ∈ s.examinedNext, s.Matches a.wire)
    Iff.rfl

/-- The message is a reply to the last request, without its header. -/
def AnswersLast (s : Req) (r : Slot Reply) : Prop :=
  ∃ m a, r = .live ⟨m, a⟩ ∧ m.sphdr = [] ∧ a.wire = putl (setTopBit s.id) ++ m.body ∧
    a.epoch = s.sends ∧ 0 < s.sends

theorem HoldsReply.inprogress {s : Req} (h : HoldsReply s.state) : s.inprogress = true := by
  rw [inprogress_iff]
  rcases h with h | h <;> simp [h]

/-- The examined message is the one at the head of its pipe. -/
theorem examinedNext_eq {s : Req} {p : Nat} {rest : List Event} {pipe : Pipe (Session Arrival)}
    {a : Arrival} (hev : s.events = .pipeIn p :: rest) (hsock : s.sock = .active)
    (hpipe : s.xreq.pipes p = some pipe) (hbox : pipe.session.inbox = [a]) :
    s.examinedNext = some a := by
  simp [examinedNext, hev, hsock, hpipe, hbox]

/-- A request was sent by the time one is in progress, and from the acceptance of a reply
until it is handed over the slot holds it. -/
structure ReplyInv (s : Req) : Prop where
  asked : s.inprogress = true → 0 < s.sends
  holds : HoldsReply s.state → AnswersLast s s.reply

theorem ReplyInv.step {s s' : Req} {l : Label} (h : ReplyInv s) (hkeep : KeepsReply s l)
    (heff : Effect s l s') : ReplyInv s' := by
  cases heff with
  | keep hk _ =>
      refine ⟨fun hp => hk.sends ▸ h.asked (hk.busy hp), fun hh => ?_⟩
      have := h.holds (hk.holds hh)
      unfold AnswersLast at this ⊢
      rwa [hk.reply, hk.id, hk.sends]
  | asked body _ hsends _ _ _ _ hno => exact ⟨fun _ => by omega, fun hh => absurd hh hno⟩
  | handed _ _ hsends _ _ _ _ _ hst =>
      refine ⟨fun hp => absurd hst (inprogress_iff.mp hp).2.1, fun hh => ?_⟩
      simp [HoldsReply, hst] at hh
  | examined p rest pipe a hl hev hsock hpipe hbox hepoch hex =>
      have hnext := examinedNext_eq hev hsock hpipe hbox
      rcases hex.outcome with ⟨m, -, hst, hno⟩ | ⟨m, hrep, hhdr, hwire, hprog, -⟩
      · have hnot : ¬ HoldsReply s.state := fun hh =>
          hno ⟨hh.inprogress, hkeep hl hh a hnext⟩
        refine ⟨fun hp => ?_, fun hh => absurd (hst ▸ hh) hnot⟩
        rw [hex.sends]
        refine h.asked ?_
        rwa [inprogress_iff, ← hst, ← inprogress_iff]
      · have hpos := h.asked hprog
        refine ⟨fun _ => hex.sends ▸ hpos, fun _ => ⟨m, a, hrep, hhdr, ?_, ?_, ?_⟩⟩
        · rw [hex.id, hwire]
        · rw [hex.sends, hepoch]
        · rw [hex.sends]
          exact hpos
  | destroyed rest _ _ _ _ _ _ hst =>
      refine ⟨fun hp => absurd hst (inprogress_iff.mp hp).1, fun hh => ?_⟩
      simp [HoldsReply, hst] at hh

/-- Any other step leaves a dropped message in place of the accepted reply. -/
theorem keepsReply_of_not_stale {s s' : Req} {l : Label} (heff : Effect s l s')
    (h : HoldsReply s'.state → s'.reply.isStale = false) : KeepsReply s l := by
  intro hl hholds a ha
  cases heff with
  | keep _ hq => exact absurd ((hq hl).1.symm.trans ha) (by simp)
  | asked body hl' => exact absurd (hl'.symm.trans hl) (by simp)
  | handed hl' => exact absurd (hl'.symm.trans hl) (by simp)
  | examined p rest pipe a' _ hev hsock hpipe hbox _ hex =>
      obtain rfl := Option.some.inj (ha.symm.trans (examinedNext_eq hev hsock hpipe hbox))
      rcases hex.outcome with ⟨m, hrep, hst, -⟩ | ⟨m, -, -, hwire, -, -⟩
      · have := h (hst ▸ hholds)
        simp [hrep, Slot.isStale] at this
      · rw [Matches, hwire]
        exact List.take_left' (length_putl _)
  | destroyed rest _ hev => simp [examinedNext, hev] at ha

theorem replyInv_reachable {s : Req} (h : (system.restrict KeepsReply).Reachable s) :
    ReplyInv s := by
  refine h.invariant ?_ ?_
  · rintro s ⟨lastid, rfl⟩
    exact ⟨fun hp => absurd hp (by simp [inprogress, init]), fun hh => by
      simp [HoldsReply, init] at hh⟩
  · rintro s l s' hs hrep ⟨hkeep, hstep⟩
    exact hrep.step hkeep ((inv_reachable hs.of_restrict).step hstep).2.1

/-- A receive that hands over a message hands over what is in `task.reply`, in DONE. -/
theorem crecv_reply {s s' : Req} {r : Slot Reply} (h : s.next .crecv = .ok (s', .reply r)) :
    s.state = .done ∧ r = s.reply := by
  change s.crecv = _ at h
  unfold crecv at h
  split at h
  · simp at h
  · split at h
    · simp at h
    · rename_i hdone
      obtain ⟨s₁, -, heq⟩ := bind_eq_ok_iff.mp h
      obtain ⟨-, hr⟩ := Prod.mk.inj (Except.ok.inj heq)
      exact ⟨not_not.mp hdone, (Result.reply.inj hr).symm⟩

/-- In a run in which only replies to the request are received over an accepted reply,
the user is handed the reply to the last request.  A next step that does not meet the
condition takes that reply away. -/
theorem handed_over {s : Req} (h : (system.restrict KeepsReply).Reachable s) :
    (∀ s' r, s.next .crecv = .ok (s', .reply r) → AnswersLast s r) ∧
    (∀ l s', system.step s l s' → HoldsReply s'.state →
      (AnswersLast s' s'.reply ↔ KeepsReply s l)) := by
  have hrep := replyInv_reachable h
  refine ⟨fun s' r hnext => ?_, fun l s' hstep hholds => ?_⟩
  · obtain ⟨hdone, rfl⟩ := crecv_reply hnext
    exact hrep.holds (Or.inr hdone)
  · have heff := ((inv_reachable h.of_restrict).step hstep).2.1
    refine ⟨fun hans => keepsReply_of_not_stale heff fun _ => ?_,
      fun hkeep => (hrep.step hkeep heff).holds hholds⟩
    obtain ⟨m, a, hlive, -⟩ := hans
    simp [hlive, Slot.isStale]

theorem handed_over_replied : ∃ s r, after KeepsReply (replied ++ timerStops) = some s ∧
    r = .live ⟨{ body := [98] }, ⟨putl (setTopBit 1) ++ [98], 1⟩⟩ ∧ AnswersLast s r := by
  have hrun : (after KeepsReply (replied ++ timerStops)).map
      (fun s => (s.sock, s.events, s.crecv.toOption.map Prod.snd)) = some (.active, [],
        some (.reply (.live ⟨{ body := [98] }, ⟨putl (setTopBit 1) ++ [98], 1⟩⟩))) := by
    decide +kernel
  obtain ⟨s, s', hs, -, hnext⟩ := crecv_after hrun
  exact ⟨s, _, hs, rfl, (handed_over (reachable_after hs)).1 s' _ hnext⟩

/-- A malformed message that arrives before the user receives takes the place of the
reply: the user is handed a message that was released. -/
theorem not_handed_over : ∃ s s' r, system.Reachable s ∧ Enabled s .crecv ∧
    s.next .crecv = .ok (s', .reply r) ∧ ¬ AnswersLast s r := by
  have hrun : (after (fun _ _ => True) (replied ++ timerStops ++ malformed)).map
      (fun s => (s.sock, s.events, s.crecv.toOption.map Prod.snd)) = some (.active, [],
        some (.reply (.stale ⟨{ body := [0] }, ⟨[0], 1⟩⟩))) := by
    decide +kernel
  obtain ⟨s, s', hs, hl, hnext⟩ := crecv_after hrun
  refine ⟨s, s', _, (reachable_after hs).of_restrict, hl, hnext, ?_⟩
  rintro ⟨m, a, heq, -⟩
  exact absurd heq (by simp)

/-! ## Who owns the messages -/

/-- No message is received over one that is still owned, and the socket is not destroyed
with a dropped message in `task.reply`. -/
def Releases (s : Req) (l : Label) : Prop :=
  l = .deliver → (s.reply.isLive = true → s.examinedNext = none) ∧
    (s.events.head? = some .sockStopped → s.sock = .stopping → s.reply.isStale = false)

instance (s : Req) (l : Label) : Decidable (Releases s l) :=
  inferInstanceAs (Decidable (_ → _ ∧ _))

/-- Nothing went wrong with the two messages, and none is left at the end. -/
structure OwnerInv (s : Req) : Prop where
  misuse : s.misuse = []
  holds : HoldsReply s.state → s.reply.isLive = true
  fini : s.sock = .fini → s.request.isLive = false ∧ s.reply.isLive = false

theorem Slot.term_of_not_stale {α : Type} {slot : Slot α} (h : slot.isStale = false) :
    slot.term.2 = [] ∧ slot.term.1.isLive = false := by
  cases slot with
  | blank => exact ⟨rfl, rfl⟩
  | live m => exact ⟨rfl, rfl⟩
  | stale m => exact absurd h (by simp [Slot.isStale])

theorem Slot.put_of_not_live {α : Type} {slot : Slot α} (m : α) (h : slot.isLive = false) :
    (slot.put m).2 = [] := by
  cases slot with
  | blank => rfl
  | live m => exact absurd h (by simp [Slot.isLive])
  | stale m => rfl

theorem OwnerInv.step {s s' : Req} {l : Label} (hinv : Inv s) (h : OwnerInv s)
    (hrel : Releases s l) (heff : Effect s l s') : OwnerInv s' := by
  cases heff with
  | keep hk _ =>
      refine ⟨hk.misuse.trans h.misuse, fun hh => hk.reply ▸ h.holds (hk.holds hh), fun hf => ?_⟩
      rw [hk.request, hk.reply]
      exact h.fini (hk.fini hf)
  | asked body _ _ _ _ hmis hsock hno =>
      exact ⟨hmis.trans h.misuse, fun hh => absurd hh hno, fun hf => by simp [hsock] at hf⟩
  | handed _ _ _ _ _ hmis hsock hdone hst =>
      refine ⟨?_, fun hh => by simp [HoldsReply, hst] at hh, fun hf => by simp [hsock] at hf⟩
      have hlive := h.holds (Or.inr hdone)
      rw [hmis, h.misuse]
      cases hr : s.reply with
      | live m => rfl
      | _ => simp [hr, Slot.isLive] at hlive
  | examined p rest pipe a hl hev hsock hpipe hbox hepoch hex =>
      have hnext := examinedNext_eq hev hsock hpipe hbox
      have hfree : s.reply.isLive = false := by
        rw [← Bool.not_eq_true]
        intro hlive
        exact absurd ((hrel hl).1 hlive) (by simp [hnext])
      have hnot : ¬ HoldsReply s.state := fun hh => by
        rw [h.holds hh] at hfree
        exact absurd hfree (by simp)
      have hfini : s'.sock ≠ .fini := by simp [hex.sock, hsock]
      have hmis : s'.misuse = [] := by
        rw [hex.misuse ⟨{}, a⟩, h.misuse, Slot.put_of_not_live _ hfree]
        rfl
      rcases hex.outcome with ⟨m, -, hst, -⟩ | ⟨m, hrep, -⟩
      · exact ⟨hmis, fun hh => absurd (hst ▸ hh) hnot, fun hf => absurd hf hfini⟩
      · exact ⟨hmis, fun _ => by rw [hrep]; rfl, fun hf => absurd hf hfini⟩
  | destroyed rest hl hev hsock hreq hrep hmis hst =>
      obtain ⟨hr, hr'⟩ := Slot.term_of_not_stale ((hrel hl).2 (by simp [hev]) hsock)
      obtain ⟨hq, hq'⟩ := Slot.term_of_not_stale (hinv.request (by simp [hsock]))
      refine ⟨?_, fun hh => by simp [HoldsReply, hst] at hh, fun _ => ⟨?_, ?_⟩⟩
      · rw [hmis, h.misuse, hr, hq]
        rfl
      · rw [hreq, hq']
      · rw [hrep, hr']

/-- Every other step leaves a message unreleased or releases one twice. -/
theorem releases_of_misuse {s s' : Req} {l : Label} (hmis : s'.misuse = s.misuse)
    (heff : Effect s l s') : Releases s l := by
  cases heff with
  | keep _ hq =>
      intro hl
      exact ⟨fun _ => (hq hl).1, fun hev hsock => absurd hsock ((hq hl).2 hev)⟩
  | asked body hl => exact fun hd => absurd (hl.symm.trans hd) (by simp)
  | handed hl => exact fun hd => absurd (hl.symm.trans hd) (by simp)
  | examined p rest pipe a _ hev _ _ _ _ hex =>
      refine fun _ => ⟨fun hlive => ?_, fun hhead => absurd hhead (by simp [hev])⟩
      have happ := hex.misuse ⟨{}, a⟩
      rw [hmis, List.self_eq_append_right] at happ
      cases hr : s.reply <;> simp [hr, Slot.put, Slot.isLive] at happ hlive
  | destroyed rest _ hev _ _ _ hmis' _ =>
      refine fun _ => ⟨fun _ => by simp [examinedNext, hev], fun _ _ => ?_⟩
      rw [hmis, List.append_assoc, List.self_eq_append_right, List.append_eq_nil_iff] at hmis'
      cases hr : s.reply <;> simp [hr, Slot.term, Slot.isStale] at hmis' ⊢

theorem crecv_moves {s s' : Req} {r : Slot Reply} (hinv : Inv s) (hl : Enabled s .crecv)
    (h : s.next .crecv = .ok (s', .reply r)) : s'.reply = .blank := by
  obtain ⟨hdone, -⟩ := crecv_reply h
  obtain ⟨hopen, -⟩ := hinv.isOpen (Or.inl hl.1)
  obtain ⟨rfl, -⟩ := Prod.mk.inj (Except.ok.inj (h.symm.trans (crecv_done hopen.fsm hdone)))
  rfl

/-- In a run that meets the condition nothing goes wrong with the messages of the task, a
reply that is handed over is owned by the user from then on, and when the socket is gone
both messages have been released.  A next step that does not meet it goes wrong. -/
theorem released_once {s : Req} (h : (system.restrict Releases).Reachable s) :
    s.misuse = [] ∧
    (∀ l s', system.step s l s' → (s'.misuse = [] ↔ Releases s l)) ∧
    (Enabled s .crecv → ∀ s' r, s.next .crecv = .ok (s', .reply r) →
      r.isLive = true ∧ s'.reply = .blank) ∧
    (s.sock = .fini → s.request.isLive = false ∧ s.reply.isLive = false) := by
  have hinv := inv_reachable h.of_restrict
  have howner : OwnerInv s := by
    refine h.invariant ?_ ?_
    · rintro s ⟨lastid, rfl⟩
      exact ⟨rfl, fun hh => by simp [HoldsReply, init] at hh, fun hf => by simp [init] at hf⟩
    · rintro s l s' hs howner ⟨hrel, hstep⟩
      have hinv := inv_reachable hs.of_restrict
      exact howner.step hinv hrel (hinv.step hstep).2.1
  refine ⟨howner.misuse, fun l s' hstep => ?_,
    fun hl s' r hnext => ⟨?_, crecv_moves hinv hl hnext⟩, howner.fini⟩
  · have heff := (hinv.step hstep).2.1
    exact ⟨fun hmis => releases_of_misuse (hmis.trans howner.misuse.symm) heff,
      fun hrel => (howner.step hinv hrel heff).misuse⟩
  obtain ⟨hdone, rfl⟩ := crecv_reply hnext
  exact howner.holds (Or.inr hdone)

theorem released_once_replied : ∃ s, after Releases (replied ++ timerStops ++ [.crecv]) = some s ∧
    s.misuse = [] := by
  have hsome : (after Releases (replied ++ timerStops ++ [.crecv])).isSome = true := by
    decide +kernel
  obtain ⟨s, hs⟩ := Option.isSome_iff_exists.mp hsome
  exact ⟨s, hs, (released_once (reachable_after hs)).1⟩

/-- The accepted reply is overwritten and never released. -/
theorem not_released_once : ∃ s, system.Reachable s ∧ s.misuse = [.overwritten] := by
  have hrun : (after (fun _ _ => True) (replied ++ timerStops ++ malformed)).map misuse =
      some [.overwritten] := by
    decide +kernel
  obtain ⟨s, hs, hmis⟩ := Option.map_eq_some_iff.mp hrun
  exact ⟨s, (reachable_after hs).of_restrict, hmis⟩

end Req

end GridMq.ReqRep
