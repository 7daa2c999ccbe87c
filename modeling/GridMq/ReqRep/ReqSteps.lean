import GridMq.ReqRep.ReqInvariant

set_option autoImplicit false

/-!
# What a step of a REQ socket does

`Req.step_spec` says for every step from a state that satisfies the invariant that
it does not abort, that the invariant is kept, and which of five effects it has on
the request and the reply.  Two steps may abort: the start of the resend timer with
a negative interval, and the delivery of an event of a removed pipe.
-/

namespace GridMq.ReqRep

open GridMq.Core GridMq.Protocols GridMq.Aio

namespace Req

/-! ## Effects -/

/-- The wire message answers the last request of the user. -/
def Matches (s : Req) (wire : List UInt8) : Prop := wire.take 4 = putl (setTopBit s.id)

instance (s : Req) (wire : List UInt8) : Decidable (s.Matches wire) :=
  inferInstanceAs (Decidable (wire.take 4 = putl (setTopBit s.id)))

/-- The message that is received into `task.reply` when the next event is delivered. -/
def examinedNext (s : Req) : Option Arrival :=
  match s.events with
  | .pipeIn p :: _ =>
      if s.sock = .active then (s.xreq.pipes p).bind fun pipe => pipe.session.inbox.head?
      else none
  | _ => none

/-- The step does not receive a message and does not destroy the socket. -/
def Untouched (s : Req) (l : Label) : Prop :=
  l = .deliver → s.examinedNext = none ∧
    (s.events.head? = some .sockStopped → s.sock ≠ .stopping)

/-- The step does not touch the two messages of the task. -/
structure Keeps (s s' : Req) : Prop where
  id : s'.id = s.id
  sends : s'.sends = s.sends
  request : s'.request = s.request
  reply : s'.reply = s.reply
  misuse : s'.misuse = s.misuse
  fini : s'.sock = .fini → s.sock = .fini
  holds : HoldsReply s'.state → HoldsReply s.state
  busy : s'.inprogress = true → s.inprogress = true

/-- A message was received into `task.reply` and looked at. -/
structure Examined (s : Req) (a : Arrival) (s' : Req) : Prop where
  id : s'.id = s.id
  sends : s'.sends = s.sends
  request : s'.request = s.request
  sock : s'.sock = s.sock
  misuse : ∀ r, s'.misuse = s.misuse ++ (s.reply.put r).2
  outcome :
    (∃ m, s'.reply = .stale ⟨m, a⟩ ∧ s'.state = s.state ∧
      ¬ (s.inprogress = true ∧ s.Matches a.wire)) ∨
    (∃ m : Msg, s'.reply = .live ⟨m, a⟩ ∧ m.sphdr = [] ∧
      a.wire = putl (setTopBit s.id) ++ m.body ∧ s.inprogress = true ∧
      s'.state = if s.state = .active then .stoppingTimer else s.state)

/-- What a step does to the messages of the task. -/
inductive Effect (s : Req) (l : Label) (s' : Req) : Prop where
  | keep (h : Keeps s s') (hl : Untouched s l)
  | asked (body : List UInt8) (hl : l = .csend body) (sends : s'.sends = s.sends + 1)
      (request : s'.request.isLive = true) (reply : s'.reply = s.reply)
      (misuse : s'.misuse = s.misuse) (sock : s'.sock = .active)
      (holds : ¬ HoldsReply s'.state)
  | handed (hl : l = .crecv) (id : s'.id = s.id) (sends : s'.sends = s.sends)
      (request : s'.request = s.request) (reply : s'.reply = .blank)
      (misuse : s'.misuse = s.misuse ++ s.reply.read) (sock : s'.sock = .active)
      (from_done : s.state = .done) (state : s'.state = .passive)
  | examined (p : Nat) (rest : List Event) (pipe : Pipe (Session Arrival)) (a : Arrival)
      (hl : l = .deliver) (hev : s.events = .pipeIn p :: rest) (sock : s.sock = .active)
      (hpipe : s.xreq.pipes p = some pipe) (inbox : pipe.session.inbox = [a])
      (epoch : a.epoch = s.sends) (h : Examined s a s')
  | destroyed (rest : List Event) (hl : l = .deliver) (hev : s.events = .sockStopped :: rest)
      (sock : s.sock = .stopping) (request : s'.request = s.request.term.1)
      (reply : s'.reply = s.reply.term.1)
      (misuse : s'.misuse = s.misuse ++ s.reply.term.2 ++ s.request.term.2)
      (state : s'.state = .idle)

theorem Effect.kept {s s' : Req} {l : Label} (h : Keeps s s') (hl : l ≠ .deliver) :
    Effect s l s' :=
  .keep h fun hd => absurd hd hl

theorem untouched_of_event {s : Req} {e : Event} {rest : List Event} (hev : s.events = e :: rest)
    (hin : s.sock = .active → ∀ p, e ≠ .pipeIn p) (hstop : e ≠ .sockStopped) :
    Untouched s .deliver := by
  intro _
  refine ⟨?_, by simp [hev, hstop]⟩
  unfold examinedNext
  rw [hev]
  cases e with
  | pipeIn p =>
      by_cases hsock : s.sock = .active
      · exact absurd rfl (hin hsock p)
      · simp [hsock]
  | _ => rfl

/-- The next event is one of a pipe that was removed when it was in the queue. -/
def Dangling (s : Req) (l : Label) : Prop :=
  l = .deliver ∧ s.sock = .active ∧ ∃ p rest, s.xreq.pipes p = none ∧
    (s.events = .pipeIn p :: rest ∨ s.events = .pipeOut p :: rest)

/-- The step succeeds, keeps the invariant and has one of the effects.  Otherwise it
starts the timer with a negative interval or follows a removed pipe. -/
def Stepped (s : Req) (l : Label) (x : Except Abort (Req × Result)) : Prop :=
  (∃ s' r, x = .ok (s', r) ∧ Inv s' ∧ Effect s l s' ∧
    ((∀ ivl, l ≠ .setResendIvl ivl) → s'.resendIvl = s.resendIvl)) ∨
    x = .error .assertion ∧ s.resendIvl < 0 ∨ x = .error .nullPointer ∧ Dangling s l

/-! ## The state invariant under what does not concern the state machine -/

theorem StateInv.transfer {s s' : Req} (h : StateInv s) (hstate : s'.state = s.state)
    (htimer : s'.timer = s.timer) (hsent : s'.sentTo = s.sentTo)
    (hno : NoTimer s.events → NoTimer s'.events)
    (hpend : ∀ t, Pending s.events t → Pending s'.events t)
    (hlb : s.state = .delayed → s.xreq.lb.isActive = false → s'.xreq.lb.isActive = false)
    (hatt : ∀ p, s.sentTo = some p → s.xreq.pipes p ≠ none → s'.xreq.pipes p ≠ none) :
    StateInv s' := by
  have hidle : TimerIdle s → TimerIdle s' := by
    rintro ⟨h1, h2⟩
    exact ⟨htimer ▸ h1, hno h2⟩
  have hrunning : TimerRunning s → TimerRunning s' := by
    rintro ⟨h1, h2⟩
    exact ⟨htimer ▸ h1, h2.imp hno (hpend _)⟩
  have hstopping : TimerStopping s → TimerStopping s' := by
    rintro (⟨h1, h2⟩ | ⟨h1, h2⟩)
    · exact Or.inl ⟨htimer ▸ h1, hno h2⟩
    · exact Or.inr ⟨htimer ▸ h1, hpend _ h2⟩
  unfold StateInv at h ⊢
  rw [hstate, hsent]
  cases hst : s.state with
  | idle => simp only [hst] at h
  | stopping => simp only [hst] at h
  | passive =>
      simp only [hst] at h ⊢
      exact ⟨hidle h.1, h.2⟩
  | done =>
      simp only [hst] at h ⊢
      exact ⟨hidle h.1, h.2⟩
  | delayed =>
      simp only [hst] at h ⊢
      exact ⟨hidle h.1, h.2.1, hlb hst h.2.2⟩
  | active =>
      simp only [hst] at h ⊢
      obtain ⟨h1, p, h2, h3⟩ := h
      exact ⟨hrunning h1, p, h2, hatt p h2 h3⟩
  | timedOut | cancelling | stoppingTimer =>
      simp only [hst] at h ⊢
      exact ⟨hstopping h.1, h.2⟩

/-- Every other event may be taken from the queue. -/
theorem StateInv.pop {s : Req} {e : Event} {rest : List Event} (h : StateInv s)
    (hev : s.events = e :: rest) (he : ∀ t, e ≠ .timer t) :
    StateInv { s with events := rest } := by
  refine h.transfer rfl rfl rfl ?_ ?_ (fun _ h => h) (fun _ _ h => h)
  · intro hno
    rw [hev] at hno
    exact hno.tail
  · intro t hpend
    rw [hev] at hpend
    exact absurd hpend (not_pending_cons he)

/-- An event of another source may be added to the queue. -/
theorem StateInv.push {s : Req} {e : Event} (h : StateInv s) (he : ∀ t, e ≠ .timer t) :
    StateInv { s with events := s.events ++ [e] } :=
  h.transfer rfl rfl rfl (fun hno => hno.append he) (fun _ hp => hp.append he)
    (fun _ h => h) (fun _ _ h => h)

/-- In ACTIVE the timer can report a timeout only by the next event. -/
theorem StateInv.noTimer {s : Req} {e : Event} {rest : List Event} (h : StateInv s)
    (hev : s.events = e :: rest) (he : ∀ t, e ≠ .timer t) (hact : s.state = .active) :
    NoTimer rest := by
  unfold StateInv at h
  simp only [hact] at h
  rcases h.1.2 with hno | hpend
  · exact (hev ▸ hno : NoTimer (e :: rest)).tail
  · exact absurd (hev ▸ hpend) (not_pending_cons he)

/-- Only in ACTIVE is the request bound to a pipe. -/
theorem StateInv.of_sentTo {s : Req} {p : Nat} (h : StateInv s) (hsent : s.sentTo = some p) :
    s.state = .active ∧ s.timer.Running ∧ s.xreq.pipes p ≠ none := by
  unfold StateInv at h
  cases hst : s.state with
  | active =>
      simp only [hst, hsent] at h
      obtain ⟨hrun, q, hq, hatt⟩ := h
      exact ⟨rfl, hrun.1, Option.some.inj hq ▸ hatt⟩
  | _ => simp [hst, hsent] at h

/-- Only in ACTIVE is the timer running. -/
theorem StateInv.of_running {s : Req} (h : StateInv s) (hrun : s.timer.Running) :
    s.state = .active ∧ s.sentTo ≠ none := by
  have hidle : ¬ TimerIdle s := fun hi => absurd (hi.1.1.symm.trans hrun.1) (by simp)
  have hstop : ¬ TimerStopping s := by
    rintro (hs | hs)
    · exact absurd (hs.1.1.symm.trans hrun.1) (by simp)
    · exact absurd (hs.1.1.symm.trans hrun.1) (by simp)
  unfold StateInv at h
  cases hst : s.state with
  | active =>
      simp only [hst] at h
      obtain ⟨-, p, hp, -⟩ := h
      exact ⟨rfl, by simp [hp]⟩
  | idle | stopping => simp only [hst] at h
  | passive | done | delayed =>
      simp only [hst] at h
      exact absurd h.1 hidle
  | timedOut | cancelling | stoppingTimer =>
      simp only [hst] at h
      exact absurd h.1 hstop

theorem inprogress_iff {s : Req} :
    s.inprogress = true ↔ s.state ≠ .idle ∧ s.state ≠ .passive ∧ s.state ≠ .stopping := by
  unfold inprogress
  cases s.state <;> simp

/-! ## Looking at a reply -/

theorem sphdr_eq_iff {hdr : List UInt8} {id : Nat} (hid : id < 2 ^ 32) :
    hdr.length = 4 ∧ topBit (getl hdr) = true ∧ getl hdr = setTopBit id ↔
      hdr = putl (setTopBit id) := by
  constructor
  · rintro ⟨hlen, -, hget⟩
    rw [← hget, putl_getl hlen]
  · rintro rfl
    have hget : getl (putl (setTopBit id)) = setTopBit id := by
      have h := getl_putl (setTopBit_lt hid) []
      rwa [List.append_nil] at h
    exact ⟨rfl, by rw [hget, topBit_setTopBit], hget⟩

/-- A reply that fails one of the four checks of `grid_req_in` is dropped. -/
theorem examine_drop {s : Req} {r : Reply} (hid : s.id < 2 ^ 32)
    (h : ¬ (s.inprogress = true ∧ r.msg.sphdr = putl (setTopBit s.id))) :
    s.examine r = .ok (s.termReply, true) := by
  rw [← sphdr_eq_iff hid] at h
  unfold examine
  split
  · rfl
  · split
    · rfl
    · split
      · rfl
      · split
        · rfl
        · rename_i hprog hlen htop hget
          simp only [Bool.not_eq_true', Bool.not_eq_false, ne_eq, not_not] at hprog hlen htop hget
          exact absurd ⟨hprog, hlen, htop, hget⟩ h

/-- A reply that passes them is accepted. -/
theorem examine_accept {s : Req} {r : Reply} (hid : s.id < 2 ^ 32) (hprog : s.inprogress = true)
    (h : r.msg.sphdr = putl (setTopBit s.id)) :
    s.examine r = if s.state = .active then do
        let self ← (s.trimReply r).action .in
        return (self, false)
      else .ok (s.trimReply r, false) := by
  obtain ⟨hlen, htop, hget⟩ := (sphdr_eq_iff hid).mpr h
  simp only [examine, hprog, hlen, hget, topBit_setTopBit, Bool.not_true, Bool.false_eq_true,
    ne_eq, not_true_eq_false, if_false]
  rfl

/-- The loop of `grid_req_in` takes the one message that is there. -/
theorem reqIn_spec {s : Req} {p : Nat} (hopen : Open s) (hsock : s.sock = .active)
    (hstate : StateInv s) (hno : s.state = .active → NoTimer s.events)
    (hnet : NetInv { s with events := .pipeIn p :: s.events }) (hnew : .pipeIn p ∉ s.events)
    (hp : s.xreq.pipes p ≠ none) :
    ∃ s' pipe a, s.reqIn p = .ok s' ∧ Inv s' ∧ s'.resendIvl = s.resendIvl ∧
      s.xreq.pipes p = some pipe ∧ pipe.session.inbox = [a] ∧ a.epoch = s.sends ∧
      Examined s a s' := by
  unfold NetInv at hnet
  simp only [hsock, decide_true] at hnet
  obtain ⟨x₁, x₂, a, pipe, hpipe, hinbox, hepoch, hin, hunread, hrecv, hagain, hinv, hatt, hlb⟩ :=
    Xreq.xreqIn_spec hnet (by simp : Event.pipeIn p ∈ Event.pipeIn p :: s.events) hp
  obtain ⟨k, hk⟩ : ∃ k, x₁.unread = k + 1 := ⟨x₁.unread - 1, by omega⟩
  -- the state after the loop, up to what became of the message
  have hnet₂ : ∀ s' : Req, s'.sock = s.sock → s'.sends = s.sends → s'.events = s.events →
      s'.xreq = x₂ → NetInv s' := by
    intro s' h1 h2 h3 h4
    unfold NetInv
    rw [h1, h2, h3, h4, hsock]
    refine hinv.congr (fun q => ?_) (fun q => ?_)
    · constructor
      · intro hq
        exact ⟨List.mem_cons_of_mem _ hq, fun h => hnew (h ▸ hq)⟩
      · rintro ⟨hq, hne⟩
        exact (List.mem_cons.mp hq).resolve_left (fun h => hne (Event.pipeIn.inj h))
    · simp
  have hstate₂ : ∀ s' : Req, s'.state = s.state → s'.timer = s.timer → s'.sentTo = s.sentTo →
      s'.events = s.events → s'.xreq = x₂ → StateInv s' := by
    intro s' h1 h2 h3 h4 h5
    refine hstate.transfer h1 h2 h3 (by rw [h4]; exact fun h => h)
      (by rw [h4]; exact fun _ h => h)
      (fun _ h => by rw [h5, hlb]; exact h) (fun q _ h => ?_)
    rw [h5]
    exact fun hnone => h ((hatt q).mp hnone)
  have hmis : ∀ r r', (s.reply.put r).2 = (s.reply.put r').2 := by
    intro r r'
    cases s.reply <;> rfl
  unfold reqIn
  rw [hin]
  simp only [ok_bind, hk]
  unfold inLoop xreqRecv
  simp only [hrecv, ok_bind]
  cases hsplit : xreqSplit a.wire with
  | none =>
      have hshort : ¬ s.Matches a.wire := by
        intro hm
        have hlen := congrArg List.length hm
        simp only [List.length_take, length_putl] at hlen
        unfold xreqSplit at hsplit
        split at hsplit
        · omega
        · exact absurd hsplit (by simp)
      refine ⟨_, pipe, a, rfl, ?_, rfl, hpipe, hinbox, hepoch, ?_⟩
      · exact Open.inv ⟨hopen.1, hopen.2, hopen.3, hopen.4, hopen.5, hopen.6⟩
          (hstate₂ _ rfl rfl rfl rfl rfl) (hnet₂ _ rfl rfl rfl rfl)
      · refine ⟨rfl, rfl, rfl, rfl, fun r => ?_, Or.inl ⟨{ body := a.wire }, ?_, rfl, ?_⟩⟩
        · cases hrep : s.reply <;> simp [termReply, putReply, Slot.put, Slot.term]
        · cases hrep : s.reply <;> simp [termReply, putReply, Slot.put, Slot.term]
        · exact fun h => hshort h.2
  | some msg =>
      obtain ⟨hwire, hlen⟩ := xreqSplit_eq_some hsplit
      have htake : a.wire.take 4 = msg.sphdr := by
        rw [hwire, List.take_left' hlen]
      have hput : ∀ r, ({ s with xreq := x₂ } : Req).putReply r =
          { s with xreq := x₂, reply := .live r, misuse := s.misuse ++ (s.reply.put r).2 } := by
        intro r
        unfold putReply
        cases s.reply <;> rfl
      simp only [ok_bind, pure_eq_ok, hput]
      let s₁ : Req := { s with
        xreq := x₂, reply := .live ⟨msg, a⟩, misuse := s.misuse ++ (s.reply.put ⟨msg, a⟩).2 }
      have hid : s₁.id < 2 ^ 32 := hopen.idLt
      by_cases hm : s.inprogress = true ∧ msg.sphdr = putl (setTopBit s.id)
      · rw [show s₁.examine ⟨msg, a⟩ = _ from examine_accept hid hm.1 hm.2]
        have hbody : a.wire = putl (setTopBit s.id) ++ msg.body := by rw [hwire, hm.2]
        by_cases hact : s.state = .active
        · have hrun : s.timer.Running := by
            unfold StateInv at hstate
            simp only [hact] at hstate
            exact hstate.1.1
          obtain ⟨s', haction, hframe, hstate', hnet', hst'⟩ :=
            feed_in (s := s₁.trimReply ⟨msg, a⟩) hopen.fsm hact hrun (hno hact)
              (hnet₂ _ rfl rfl rfl rfl)
          refine ⟨s', pipe, a, ?_, ?_, hframe.resendIvl, hpipe, hinbox, hepoch, ?_⟩
          · rw [if_pos (show s₁.state = .active from hact), haction]
            rfl
          · have hopen' : Open s' :=
              Open.frame (s := s₁.trimReply ⟨msg, a⟩)
                ⟨hopen.1, hopen.2, hopen.3, hopen.4, hopen.5, hopen.6⟩ hframe
            exact hopen'.inv hstate' hnet'
          · refine ⟨hframe.id, hframe.sends, hframe.request, hframe.sock, fun r => ?_,
              Or.inr ⟨{ body := msg.body }, hframe.reply, rfl, hbody, hm.1, ?_⟩⟩
            · rw [hframe.misuse]
              exact congrArg (s.misuse ++ ·) (hmis _ _)
            · rw [if_pos hact, hst']
        · refine ⟨s₁.trimReply ⟨msg, a⟩, pipe, a, ?_, ?_, rfl, hpipe, hinbox, hepoch, ?_⟩
          · rw [if_neg (show s₁.state ≠ .active from hact)]
            rfl
          · exact Open.inv ⟨hopen.1, hopen.2, hopen.3, hopen.4, hopen.5, hopen.6⟩
              (hstate₂ _ rfl rfl rfl rfl rfl) (hnet₂ _ rfl rfl rfl rfl)
          · exact ⟨rfl, rfl, rfl, rfl, fun r => congrArg (s.misuse ++ ·) (hmis _ _),
              Or.inr ⟨{ body := msg.body }, rfl, rfl, hbody, hm.1, by rw [if_neg hact]; rfl⟩⟩
      · rw [show s₁.examine ⟨msg, a⟩ = _ from examine_drop hid hm]
        -- the next turn of the loop finds nothing
        simp only [s₁, ok_bind, if_true, inLoop, xreqRecv, termReply, hagain, pure_eq_ok]
        refine ⟨_, pipe, a, rfl, ?_, rfl, hpipe, hinbox, hepoch, ?_⟩
        · exact Open.inv ⟨hopen.1, hopen.2, hopen.3, hopen.4, hopen.5, hopen.6⟩
            (hstate₂ _ rfl rfl rfl rfl rfl) (hnet₂ _ rfl rfl rfl rfl)
        · refine ⟨rfl, rfl, rfl, rfl, fun r => ?_, Or.inl ⟨msg, rfl, rfl, ?_⟩⟩
          · simp only [Slot.term, List.append_nil]
            exact congrArg (s.misuse ++ ·) (hmis _ _)
          · exact fun h => hm ⟨h.1, by rw [← htake]; exact h.2⟩

/-! ## Steps that keep both messages -/

theorem Keeps.refl (s : Req) : Keeps s s :=
  ⟨rfl, rfl, rfl, rfl, rfl, fun h => h, fun h => h, fun h => h⟩

theorem Keeps.trans {s₁ s₂ s₃ : Req} (h : Keeps s₁ s₂) (h' : Keeps s₂ s₃) : Keeps s₁ s₃ where
  id := h'.id.trans h.id
  sends := h'.sends.trans h.sends
  request := h'.request.trans h.request
  reply := h'.reply.trans h.reply
  misuse := h'.misuse.trans h.misuse
  fini hs := h.fini (h'.fini hs)
  holds hs := h.holds (h'.holds hs)
  busy hs := h.busy (h'.busy hs)

theorem Frame.keeps {s s' : Req} (h : Frame s s') (hholds : HoldsReply s'.state → HoldsReply s.state)
    (hbusy : s'.inprogress = true → s.inprogress = true) : Keeps s s' :=
  ⟨h.id, h.sends, h.request, h.reply, h.misuse, fun hs => h.sock ▸ hs, hholds, hbusy⟩

/-- A call that keeps the messages, or starts the timer with a negative interval. -/
def Keeping (s : Req) (x : Except Abort Req) : Prop :=
  (∃ s', x = .ok s' ∧ Inv s' ∧ Keeps s s' ∧ s'.resendIvl = s.resendIvl) ∨
    x = .error .assertion ∧ s.resendIvl < 0

theorem Took.keeping {s s₁ : Req} {x : Except Abort Req} {P : Req → Prop} (h : Took s₁ x P)
    (hopen : Open s₁) (hsame : Keeps s s₁) (hivl : s₁.resendIvl = s.resendIvl)
    (hholds : ∀ s', P s' → HoldsReply s'.state → HoldsReply s₁.state)
    (hbusy : s₁.inprogress = true) : Keeping s x := by
  rcases h with ⟨s', hx, hframe, hstate, hnet, hP⟩ | ⟨hx, hneg⟩
  · refine Or.inl ⟨s', hx, (hopen.frame hframe).inv hstate hnet, hsame.trans ?_, ?_⟩
    · exact hframe.keeps (hholds s' hP) (fun _ => hbusy)
    · rw [hframe.resendIvl, hivl]
  · exact Or.inr ⟨hx, hivl ▸ hneg⟩

/-- A pipe has become writable. -/
theorem reqOut_spec {s : Req} {p : Nat} (hopen : Open s) (hstate : StateInv s)
    (hnet : NetInv { s with events := .pipeOut p :: s.events }) (hnew : .pipeOut p ∉ s.events)
    (hp : s.xreq.pipes p ≠ none) :
    Keeping s (s.reqOut p) := by
  obtain ⟨x', hcall, hinv, hon, hpipes⟩ :=
    Xreq.xreqOut_spec hnet (by simp : Event.pipeOut p ∈ Event.pipeOut p :: s.events) hp
  have hopen' : Open { s with xreq := x' } := ⟨hopen.1, hopen.2, hopen.3, hopen.4, hopen.5, hopen.6⟩
  have hnet' : NetInv { s with xreq := x' } := by
    refine hinv.congr (fun q => ?_) (fun q => ?_)
    · simp
    · constructor
      · intro hq
        exact ⟨List.mem_cons_of_mem _ hq, fun h => hnew (h ▸ hq)⟩
      · rintro ⟨hq, hne⟩
        exact (List.mem_cons.mp hq).resolve_left (fun h => hne (Event.pipeOut.inj h))
  have hsame : Keeps s { s with xreq := x' } :=
    ⟨rfl, rfl, rfl, rfl, rfl, fun h => h, fun h => h, fun h => h⟩
  unfold reqOut
  rw [hcall]
  simp only [ok_bind]
  by_cases hdel : s.state = .delayed
  · rw [if_pos hdel]
    unfold StateInv at hstate
    simp only [hdel] at hstate
    have htook := feed_out (s := { s with xreq := x' }) hopen.fsm hdel hstate.1 hstate.2.1 hnet' hon
      hopen.request
    refine htook.keeping hopen' hsame rfl (fun s' hP h => absurd h hP) ?_
    exact inprogress_iff.mpr (by simp [hdel])
  · rw [if_neg hdel]
    refine Or.inl ⟨_, rfl, hopen'.inv ?_ hnet', hsame, rfl⟩
    refine hstate.transfer rfl rfl rfl (fun h => h) (fun _ h => h) (fun h => absurd h hdel) ?_
    intro q _ hq
    exact fun hnone => hq ((hpipes q).symm.trans hnone)

/-- An event of the timer, before the socket is stopped. -/
theorem timer_spec {s : Req} {e : TimerEvent} (hopen : Open s)
    (hstate : StateInv { s with events := .timer e :: s.events }) (hnet : NetInv s) :
    Keeping s (s.feed (.resendTimer e)) := by
  refine (feed_timer hopen.fsm hstate hnet hopen.request).keeping hopen (Keeps.refl s) rfl
    (fun s' hP => hP) ?_
  -- a state in which the timer is idle waits for no event
  have hbusy : ¬ TimerIdle { s with events := .timer e :: s.events } := fun h => h.2 e (by simp)
  unfold StateInv at hstate
  rw [inprogress_iff]
  refine ⟨fun hst => ?_, fun hst => ?_, fun hst => ?_⟩
  · simp only [hst] at hstate
  · simp only [hst] at hstate
    exact hbusy hstate.1
  · simp only [hst] at hstate

/-! ## Reports of the transports -/

theorem Xreq.lb_inactive {x x' : Xreq} {active active' : Bool} {epoch epoch' : Nat}
    {inP outP inP' outP' : Nat → Prop} (h : x.Inv active epoch inP outP)
    (h' : x'.Inv active' epoch' inP' outP') (hsub : ∀ d, x'.lb.Active d → x.lb.Active d)
    (hoff : x.lb.isActive = false) : x'.lb.isActive = false := by
  rw [← Bool.not_eq_true] at hoff ⊢
  intro hon
  obtain ⟨d, hd⟩ := h'.lbWF.isActive_iff.mp hon
  exact hoff (h.lbWF.isActive_iff.mpr ⟨d, hsub d hd⟩)

/-- The pipes change and nothing else. -/
theorem keeps_xreq (s : Req) (x' : Xreq) (events : List Event) :
    Keeps s { s with xreq := x', events := events } :=
  ⟨rfl, rfl, rfl, rfl, rfl, fun h => h, fun h => h, fun h => h⟩

/-- An event of a pipe is raised after a change of the pipes. -/
theorem raise_spec {s : Req} {x' : Xreq} {e : Event} (hopen : Open s) (hstate : StateInv s)
    (he : ∀ t, e ≠ .timer t) (hne : e ≠ .sockStopped) (hnew : e ∉ s.events)
    (hnet : NetInv { s with xreq := x', events := s.events ++ [e] }) (hlb : x'.lb = s.xreq.lb)
    (hatt : ∀ q, s.xreq.pipes q ≠ none → x'.pipes q ≠ none) :
    Keeping s (({ s with xreq := x' } : Req).raise e) := by
  have hopen' : Open { s with xreq := x' } := ⟨hopen.1, hopen.2, hopen.3, hopen.4, hopen.5, hopen.6⟩
  obtain ⟨hraise, hopen''⟩ := hopen'.raise hnew hne
  rw [hraise]
  refine Or.inl ⟨_, rfl, hopen''.inv ?_ hnet, keeps_xreq s x' _, rfl⟩
  exact hstate.push he |>.transfer rfl rfl rfl (fun h => h) (fun _ h => h)
    (fun _ h => by rw [hlb]; exact h) (fun q _ h => hatt q h)

theorem mem_push_pipeIn {events : List Event} {p q : Nat} :
    Event.pipeIn q ∈ events ++ [.pipeIn p] ↔ Event.pipeIn q ∈ events ∨ q = p := by
  simp

theorem mem_push_pipeOut {events : List Event} {p q : Nat} :
    Event.pipeOut q ∈ events ++ [.pipeOut p] ↔ Event.pipeOut q ∈ events ∨ q = p := by
  simp

/-- A pipe is added. -/
theorem transportStart_spec {s : Req} (p : Nat) (sndprio rcvprio : Priority) (hopen : Open s)
    (hstate : StateInv s) (hnet : NetInv s) :
    Keeping s (s.transportEvent (.start p sndprio rcvprio)) := by
  simp only [transportEvent]
  split
  · rename_i hnew
    have hnone : s.xreq.pipes p = none := Option.isNone_iff_eq_none.mp hnew.2.1
    obtain ⟨x', hcall, hinv, hother, hp, hlb⟩ :=
      Xreq.add_spec hnet hnone hnew.2.2.1 sndprio.2 rcvprio.2
    rw [hcall]
    simp only [ok_bind]
    refine raise_spec hopen hstate (by simp) (by simp) hnew.2.2.2 ?_ hlb ?_
    · exact hinv.congr (fun q => by simp) (fun q => mem_push_pipeOut)
    · intro q hq
      by_cases hqp : q = p
      · rw [hqp]
        exact hp
      · rw [hother q hqp]
        exact hq
  · exact Or.inl ⟨s, rfl, hopen.inv hstate hnet, Keeps.refl s, rfl⟩

/-- A pipe is removed, maybe the one the request was sent to. -/
theorem transportStop_spec {s : Req} (p : Nat) (hopen : Open s) (hstate : StateInv s)
    (hnet : NetInv s) (hno : s.state = .active → NoTimer s.events) :
    Keeping s (s.transportEvent (.stop p)) := by
  simp only [transportEvent]
  split
  · rename_i hold
    obtain ⟨x', hcall, hinv, hp, hother, hsub⟩ :=
      Xreq.rm_spec hnet (Option.isSome_iff_ne_none.mp hold)
    have hopen' : Open { s with xreq := x' } :=
      ⟨hopen.1, hopen.2, hopen.3, hopen.4, hopen.5, hopen.6⟩
    have hsame := keeps_xreq s x' s.events
    unfold reqRm
    rw [hcall]
    simp only [ok_bind]
    by_cases hsent : s.sentTo = some p
    · rw [if_pos hsent]
      have hact := hstate.of_sentTo hsent
      obtain ⟨s', hcall', hframe, hstate', hnet', hst'⟩ :=
        feed_pipeRm (s := { s with xreq := x' }) hopen.fsm hact.1 hact.2.1 (hno hact.1) hinv
      refine Or.inl ⟨s', hcall', (hopen'.frame hframe).inv hstate' hnet', hsame.trans ?_,
        hframe.resendIvl⟩
      refine hframe.keeps (fun h => ?_) (fun _ => inprogress_iff.mpr (by simp [hact.1]))
      simp [HoldsReply, hst'] at h
    · rw [if_neg hsent]
      refine Or.inl ⟨_, rfl, hopen'.inv ?_ hinv, hsame, rfl⟩
      refine hstate.transfer rfl rfl rfl (fun h => h) (fun _ h => h)
        (fun _ hoff => Xreq.lb_inactive hnet hinv hsub hoff) ?_
      intro q hq hq'
      have hqp : q ≠ p := fun h => hsent (h ▸ hq)
      simpa only [hother q hqp] using hq'
  · exact Or.inl ⟨s, rfl, hopen.inv hstate hnet, Keeps.refl s, rfl⟩

/-- A message arrives. -/
theorem transportReceived_spec {s : Req} (p : Nat) (wire : List UInt8) (hopen : Open s)
    (hstate : StateInv s) (hnet : NetInv s) :
    Keeping s (s.transportEvent (.received p wire)) := by
  simp only [transportEvent]
  split
  · rename_i hold
    obtain ⟨x', raised, hcall, hinv, hatt, hlb⟩ :=
      Xreq.receivedMsg_spec (a := ⟨wire, s.sends⟩) hnet (Option.isSome_iff_ne_none.mp hold.1)
        hold.2 rfl
    rw [hcall]
    simp only [ok_bind]
    cases raised with
    | true =>
        refine raise_spec hopen hstate (by simp) (by simp) hold.2 ?_ hlb ?_
        · exact hinv.congr (fun q => by rw [mem_push_pipeIn]; simp) (fun q => by simp)
        · exact fun q hq hnone => hq ((hatt q).mp hnone)
    | false =>
        refine Or.inl ⟨_, rfl, Open.inv ⟨hopen.1, hopen.2, hopen.3, hopen.4, hopen.5, hopen.6⟩ ?_ ?_,
          keeps_xreq s x' s.events, rfl⟩
        · exact hstate.transfer rfl rfl rfl (fun h => h) (fun _ h => h)
            (fun _ h => by rw [hlb]; exact h) (fun q _ hq hnone => hq ((hatt q).mp hnone))
        · exact hinv.congr (fun q => by simp) (fun q => Iff.rfl)
  · exact Or.inl ⟨s, rfl, hopen.inv hstate hnet, Keeps.refl s, rfl⟩

/-- A message has been sent. -/
theorem transportSent_spec {s : Req} (p : Nat) (hopen : Open s) (hstate : StateInv s)
    (hnet : NetInv s) : Keeping s (s.transportEvent (.sent p)) := by
  simp only [transportEvent]
  split
  · rename_i hasync
    obtain ⟨pipe, hpipe, hout⟩ := Option.map_eq_some_iff.mp hasync
    obtain ⟨x', hcall, hnew, hinv, hatt, hlb⟩ := Xreq.sentMsg_spec hnet hpipe hout
    rw [hcall]
    simp only [ok_bind]
    refine raise_spec hopen hstate (by simp) (by simp) hnew ?_ hlb ?_
    · exact hinv.congr (fun q => by simp) (fun q => mem_push_pipeOut)
    · exact fun q hq hnone => hq ((hatt q).mp hnone)
  · exact Or.inl ⟨s, rfl, hopen.inv hstate hnet, Keeps.refl s, rfl⟩

/-- What a transport reports before the socket is stopped. -/
theorem transportEvent_spec {s : Req} (e : TransportEvent) (hopen : Open s) (hstate : StateInv s)
    (hnet : NetInv s) (hno : s.state = .active → NoTimer s.events) :
    Keeping s (s.transportEvent e) := by
  cases e with
  | start p sndprio rcvprio => exact transportStart_spec p sndprio rcvprio hopen hstate hnet
  | stop p => exact transportStop_spec p hopen hstate hnet hno
  | received p wire => exact transportReceived_spec p wire hopen hstate hnet
  | sent p => exact transportSent_spec p hopen hstate hnet

/-! ## The end of the socket -/

/-- No transport has anything left to report. -/
theorem transportEvent_closed {s : Req} (e : TransportEvent) (hsock : s.sock ≠ .active)
    (hpipes : ∀ p, s.xreq.pipes p = none) : s.transportEvent e = .ok s := by
  cases e with
  | start p sndprio rcvprio => simp [transportEvent, hsock]
  | stop p => simp [transportEvent, hpipes]
  | received p wire => simp [transportEvent, hpipes]
  | sent p => simp [transportEvent, hpipes]

/-- The queue of a closed socket, without its first event. -/
theorem NetInv.pop {s : Req} {e : Event} {rest : List Event} (h : NetInv s)
    (hev : s.events = e :: rest) (hin : ∀ p, e ≠ .pipeIn p) (hout : ∀ p, e ≠ .pipeOut p) :
    NetInv { s with events := rest } := by
  refine h.congr rfl rfl rfl (fun p => ?_) (fun p => ?_)
  · rw [hev, List.mem_cons]
    exact ⟨Or.inr, fun hp => hp.resolve_left (hin p).symm⟩
  · rw [hev, List.mem_cons]
    exact ⟨Or.inr, fun hp => hp.resolve_left (hout p).symm⟩

theorem TimerIdle.pop {s : Req} {e : Event} {rest : List Event} (h : TimerIdle s)
    (hev : s.events = e :: rest) : TimerIdle { s with events := rest } :=
  ⟨h.1, (hev ▸ h.2 : NoTimer (e :: rest)).tail⟩

theorem TimerStopping.pop {s : Req} {e : Event} {rest : List Event} (h : TimerStopping s)
    (hev : s.events = e :: rest) (he : ∀ t, e ≠ .timer t) :
    TimerStopping { s with events := rest } := by
  rcases h with h | h
  · exact Or.inl ⟨h.1, (hev ▸ h.2 : NoTimer (e :: rest)).tail⟩
  · exact absurd (hev ▸ h.2) (not_pending_cons he)

theorem TimerIdle.push {s : Req} {e : Event} (h : TimerIdle s) (he : ∀ t, e ≠ .timer t) :
    TimerIdle { s with events := s.events ++ [e] } := ⟨h.1, h.2.append he⟩

theorem TimerStopping.push {s : Req} {e : Event} (h : TimerStopping s)
    (he : ∀ t, e ≠ .timer t) : TimerStopping { s with events := s.events ++ [e] } :=
  h.imp (fun h => ⟨h.1, h.2.append he⟩) (fun h => ⟨h.1, h.2.append he⟩)

theorem NoPipes.pop {s : Req} {e : Event} {rest : List Event} (h : NoPipes s)
    (hev : s.events = e :: rest) : NoPipes { s with events := rest } :=
  ⟨h.1, fun p => ⟨fun hp => (h.2 p).1 (hev ▸ List.mem_cons_of_mem e hp),
    fun hp => (h.2 p).2 (hev ▸ List.mem_cons_of_mem e hp)⟩⟩

theorem NoPipes.push {s : Req} {e : Event} (h : NoPipes s) (hin : ∀ p, e ≠ .pipeIn p)
    (hout : ∀ p, e ≠ .pipeOut p) : NoPipes { s with events := s.events ++ [e] } := by
  refine ⟨h.1, fun p => ⟨fun hp => ?_, fun hp => ?_⟩⟩
  · rcases List.mem_append.mp hp with hp | hp
    · exact (h.2 p).1 hp
    · exact hin p (List.mem_singleton.mp hp).symm
  · rcases List.mem_append.mp hp with hp | hp
    · exact (h.2 p).2 hp
    · exact hout p (List.mem_singleton.mp hp).symm

theorem head_notMem {e : Event} {rest : List Event} (he : isRaised e = true)
    (h : ((e :: rest).filter isRaised).Nodup) : e ∉ rest := by
  rw [List.filter_cons_of_pos he, List.nodup_cons] at h
  exact fun hmem => h.1 (List.mem_filter.mpr ⟨hmem, he⟩)

theorem TimerIdle.isIdle {s : Req} (h : TimerIdle s) : s.timer.isIdle s.stoppedActive = true := by
  simp [Timer.isIdle, h.1.1, stoppedActive_eq_false h.2]

/-- The state machine has stopped, and reports it. -/
theorem stopped_spec {s : Req} (hidle : TimerIdle s) (hfsm : s.fsm = .stopping)
    (hno : .sockStopped ∉ s.events) (src : ReqSource) (hsrc : src ≠ .action .stop)
    (hstate : s.state = .stopping) :
    s.shutdown src = .ok { s with
      state := .idle, fsm := .idle, events := s.events ++ [.sockStopped] } := by
  unfold shutdown
  simp [hsrc, hstate, hidle.isIdle, hfsm, Req.raise, hno]

/-- All slots of a priority list without active pipes are empty. -/
theorem slots_empty {l : Priolist} (hwf : l.WF) (hempty : ∀ d, ¬ l.Active d) :
    ((List.range priolistSlots).all fun i => (l.slots i).pipes = []) = true := by
  rw [List.all_eq_true]
  intro i hi
  rw [decide_eq_true_eq, List.eq_nil_iff_forall_not_mem]
  intro d hd
  exact hempty d (hwf.active_iff.mpr ⟨i, hd⟩)

/-- `grid_sockbase_stopped` has been reported: the socket is destroyed. -/
theorem destroy_spec {s : Req} (hidle : TimerIdle s) (hfsm : s.fsm = .idle) (hnet : NetInv s)
    (hpipes : ∀ p, s.xreq.pipes p = none) :
    s.destroy = .ok { s with
      request := s.request.term.1, reply := s.reply.term.1,
      misuse := s.misuse ++ s.reply.term.2 ++ s.request.term.2 } := by
  have hlb := slots_empty hnet.lbWF (fun d hd => by
    obtain ⟨pipe, hpipe, -⟩ := hnet.lbActive d hd
    exact absurd hpipe (by simp [hpipes]))
  have hfq := slots_empty hnet.fqWF hnet.fqEmpty
  obtain ⟨⟨h1, h2, h3, h4⟩, h5⟩ := hidle
  unfold destroy
  simp only [h2, h3, h5 .timeout, hfsm, hlb, hfq, TimerIdle.isIdle ⟨⟨h1, h2, h3, h4⟩, h5⟩,
    not_false_eq_true, gridAssert_pos, ok_bind, pure_eq_ok, termReply]

/-! ## Delivering an event -/

theorem deliver_pipeIn {s : Req} (p : Nat) (h : s.sock = .active) :
    s.deliver (.pipeIn p) = s.reqIn p := by
  simp [deliver, h]

theorem deliver_pipeOut {s : Req} (p : Nat) (h : s.sock = .active) :
    s.deliver (.pipeOut p) = s.reqOut p := by
  simp [deliver, h]

/-- A socket that is being closed drops the events of its pipes. -/
theorem deliver_pipe_closing {s : Req} (p : Nat) (h : s.sock = .stoppingEps) :
    s.deliver (.pipeIn p) = .ok s ∧ s.deliver (.pipeOut p) = .ok s := by
  simp [deliver, h]

theorem deliver_sockStopped {s : Req} (h : s.sock = .stopping) :
    s.deliver .sockStopped = s.destroy.map fun self => { self with sock := .fini } := by
  simp only [deliver, h]
  cases s.destroy <;> rfl

theorem Keeping.stepped {s s₀ : Req} {x : Except Abort Req} (h : Keeping s₀ x)
    (hsame : Keeps s s₀) (hivl : s₀.resendIvl = s.resendIvl) (hl : Untouched s .deliver) :
    Stepped s .deliver (x >>= fun self => .ok (self, .none)) := by
  rcases h with ⟨s', rfl, hinv, hkeep, hivl'⟩ | ⟨rfl, hneg⟩
  · exact Or.inl ⟨s', .none, rfl, hinv, .keep (hsame.trans hkeep) hl, fun _ => hivl'.trans hivl⟩
  · exact Or.inr (Or.inl ⟨rfl, hivl ▸ hneg⟩)

/-- An event is delivered before the socket is stopped. -/
theorem deliver_open {s : Req} {e : Event} {rest : List Event} (h : Inv s)
    (hsock : s.sock = .active ∨ s.sock = .stoppingEps) (hev : s.events = e :: rest) :
    Stepped s .deliver
      ((({ s with events := rest } : Req).deliver e) >>= fun self => .ok (self, .none)) := by
  obtain ⟨hopen, hstate⟩ := h.isOpen hsock
  have hopen₀ := hopen.pop hev
  have hs : { s with events := e :: rest } = s := by rw [← hev]
  have hnet : NetInv { s with events := e :: rest } := hs.symm ▸ h.net
  have hraised : ((e :: rest).filter isRaised).Nodup := hev ▸ h.raised
  have hkeep := keeps_xreq s s.xreq rest
  -- an event of a pipe that a closing socket drops
  have hdrop : s.sock = .stoppingEps → (∀ t, e ≠ .timer t) → e ≠ .sockStopped →
      NetInv { s with events := rest } →
      Stepped s .deliver ((.ok { s with events := rest } : Except Abort Req) >>=
        fun self => .ok (self, .none)) := by
    intro hs' ht hne hnet₀
    exact Or.inl ⟨_, _, rfl, hopen₀.inv (hstate.pop hev ht) hnet₀,
      .keep hkeep (untouched_of_event hev (by simp [hs']) hne), fun _ => rfl⟩
  cases e with
  | pipeIn p =>
      have hnew : .pipeIn p ∉ rest := head_notMem rfl hraised
      rcases hsock with hs' | hs'
      · rw [deliver_pipeIn (s := { s with events := rest }) p hs']
        by_cases hp : s.xreq.pipes p = none
        · refine Or.inr (Or.inr ⟨?_, rfl, hs', p, rest, hp, Or.inl hev⟩)
          simp [reqIn, Xreq.xreqIn, Xreq.getPipe, hp]
        obtain ⟨s', pipe, a, hcall, hinv, hivl, hpipe, hinbox, hepoch, hex⟩ :=
          reqIn_spec hopen₀ hs' (hstate.pop hev (by simp)) (hstate.noTimer hev (by simp)) hnet
            hnew hp
        refine Or.inl ⟨s', .none, by rw [hcall]; rfl, hinv, ?_, fun _ => hivl⟩
        exact .examined p rest pipe a rfl hev hs' hpipe hinbox hepoch
          ⟨hex.1, hex.2, hex.3, hex.4, hex.5, hex.6⟩
      · rw [(deliver_pipe_closing (s := { s with events := rest }) p hs').1]
        refine hdrop hs' (by simp) (by simp) ?_
        unfold NetInv at hnet ⊢
        simp only [hs', reduceCtorEq, decide_false] at hnet ⊢
        refine (hnet.drop_in (p := p)).congr (fun q => ?_) (fun q => by simp)
        exact ⟨fun hq => ⟨List.mem_cons_of_mem _ hq, fun h => hnew (h ▸ hq)⟩,
          fun hq => (List.mem_cons.mp hq.1).resolve_left (fun h => hq.2 (Event.pipeIn.inj h))⟩
  | pipeOut p =>
      have hnew : .pipeOut p ∉ rest := head_notMem rfl hraised
      rcases hsock with hs' | hs'
      · rw [deliver_pipeOut (s := { s with events := rest }) p hs']
        by_cases hp : s.xreq.pipes p = none
        · refine Or.inr (Or.inr ⟨?_, rfl, hs', p, rest, hp, Or.inr hev⟩)
          simp [reqOut, Xreq.xreqOut, Xreq.getPipe, hp]
        exact (reqOut_spec hopen₀ (hstate.pop hev (by simp)) hnet hnew hp).stepped hkeep rfl
          (untouched_of_event hev (by simp) (by simp))
      · rw [(deliver_pipe_closing (s := { s with events := rest }) p hs').2]
        refine hdrop hs' (by simp) (by simp) ?_
        refine (Xreq.Inv.drop_out (p := p) hnet).congr (fun q => by simp) (fun q => ?_)
        exact ⟨fun hq => ⟨List.mem_cons_of_mem _ hq, fun h => hnew (h ▸ hq)⟩,
          fun hq => (List.mem_cons.mp hq.1).resolve_left (fun h => hq.2 (Event.pipeOut.inj h))⟩
  | timer t =>
      exact (timer_spec hopen₀ (hs.symm ▸ hstate)
        (h.net.pop hev (by simp) (by simp))).stepped hkeep rfl
          (untouched_of_event hev (by simp) (by simp))
  | transport t =>
      exact (transportEvent_spec t hopen₀ (hstate.pop hev (by simp))
        (h.net.pop hev (by simp) (by simp)) (hstate.noTimer hev (by simp))).stepped hkeep rfl
          (untouched_of_event hev (by simp) (by simp))
  | sockStopped => exact absurd (hev ▸ List.mem_cons_self) hopen.noStop

/-- An event is delivered while the request machine is being stopped. -/
theorem deliver_stopping {s : Req} {e : Event} {rest : List Event} (h : Inv s)
    (hsock : s.sock = .stopping) (hev : s.events = e :: rest) :
    Stepped s .deliver
      ((({ s with events := rest } : Req).deliver e) >>= fun self => .ok (self, .none)) := by
  have hraised : ((e :: rest).filter isRaised).Nodup := hev ▸ h.raised
  have hreq := h.request (by simp [hsock])
  have hm := h.machine
  unfold MachineInv at hm
  simp only [hsock] at hm
  obtain ⟨hpipes, hsent, hm⟩ := hm
  cases e with
  | pipeIn p => exact absurd (hev ▸ List.mem_cons_self) (hpipes.2 p).1
  | pipeOut p => exact absurd (hev ▸ List.mem_cons_self) (hpipes.2 p).2
  | timer t =>
      have hbusy : ¬ NoTimer s.events := fun hno => hno t (by simp [hev])
      rcases hm with ⟨hfsm, hstate, hstop, hnot⟩ | ⟨-, -, hidle, -⟩
      · -- the timer has stopped
        have hpend := hstop.resolve_left (fun hs => hbusy hs.2)
        obtain ⟨hquiet, rest', heq, hno⟩ := hpend
        obtain ⟨rfl, rfl⟩ : t = .stopped ∧ rest' = rest := by
          rw [hev] at heq
          obtain ⟨h1, h2⟩ := List.cons.inj heq
          exact ⟨Event.timer.inj h1, h2.symm⟩
        rw [hev] at hnot
        have hnot' : .sockStopped ∉ rest' := fun hmem => hnot (List.mem_cons_of_mem _ hmem)
        have hcall := stopped_spec (s := { s with events := rest' }) ⟨hquiet, hno⟩ hfsm hnot'
          (.resendTimer .stopped) (by simp) hstate
        have hfeed : ({ s with events := rest' } : Req).feed (.resendTimer .stopped) = _ :=
          (if_pos hfsm).trans hcall
        unfold deliver
        simp only [hfeed, ok_bind]
        refine Or.inl ⟨_, _, rfl, ⟨h.idLt, ?_, ?_, ?_, fun _ => hreq⟩,
          .keep ?_ (untouched_of_event hev (by simp) (by simp)), fun _ => rfl⟩
        · exact raised_push (raised_tail hraised) hnot'
        · refine (h.net.pop hev (by simp) (by simp)).congr rfl rfl rfl
            (fun q => by simp) (fun q => by simp)
        · unfold MachineInv
          simp only [hsock]
          exact ⟨(hpipes.pop hev).push (by simp) (by simp), hsent,
            Or.inr ⟨trivial, trivial, ⟨hquiet, hno.append (by simp)⟩, by simp⟩⟩
        · exact ⟨rfl, rfl, rfl, rfl, rfl, fun h => h, fun hh => by simp [HoldsReply] at hh,
            fun hh => by simp [inprogress] at hh⟩
      · exact absurd hidle.2 hbusy
  | transport t =>
      have hcall := transportEvent_closed (s := { s with events := rest }) t (by simp [hsock]) hpipes.1
      have hmem : .sockStopped ∈ s.events ↔ .sockStopped ∈ rest := by simp [hev]
      unfold deliver
      simp only [hcall, ok_bind]
      refine Or.inl ⟨_, _, rfl, ⟨h.idLt, raised_tail hraised,
        h.net.pop hev (by simp) (by simp), ?_, fun _ => hreq⟩,
        .keep (keeps_xreq s s.xreq rest) (untouched_of_event hev (by simp) (by simp)),
        fun _ => rfl⟩
      unfold MachineInv
      simp only [hsock]
      refine ⟨hpipes.pop hev, hsent, hm.imp ?_ ?_⟩
      · rintro ⟨h1, h2, h3, h4⟩
        exact ⟨h1, h2, h3.pop hev (by simp), fun hs => h4 (hmem.mpr hs)⟩
      · rintro ⟨h1, h2, h3, h4⟩
        exact ⟨h1, h2, h3.pop hev, hmem.mp h4⟩
  | sockStopped =>
      have hnew : .sockStopped ∉ rest := head_notMem rfl hraised
      rcases hm with ⟨-, -, -, hnot⟩ | ⟨hfsm, hstate, hidle, -⟩
      · exact absurd (hev ▸ List.mem_cons_self) hnot
      · have hnet := h.net.pop hev (by simp) (by simp)
        rw [deliver_sockStopped (s := { s with events := rest }) hsock,
          destroy_spec (hidle.pop hev) hfsm hnet hpipes.1]
        refine Or.inl ⟨_, _, rfl, ⟨h.idLt, raised_tail hraised, ?_, ?_, ?_⟩,
          .destroyed rest rfl hev hsock rfl rfl rfl hstate, fun _ => rfl⟩
        · unfold NetInv at hnet ⊢
          simpa [hsock] using hnet
        · exact ⟨hpipes.pop hev, hsent, hstate, hidle.pop hev, hnew⟩
        · exact fun hne => absurd rfl hne

/-- What is delivered after the end of the socket has no effect. -/
theorem deliver_fini {s : Req} {e : Event} {rest : List Event} (h : Inv s)
    (hsock : s.sock = .fini) (hev : s.events = e :: rest) :
    Stepped s .deliver
      ((({ s with events := rest } : Req).deliver e) >>= fun self => .ok (self, .none)) := by
  have hraised : ((e :: rest).filter isRaised).Nodup := hev ▸ h.raised
  have hm := h.machine
  unfold MachineInv at hm
  simp only [hsock] at hm
  obtain ⟨hpipes, hsent, hstate, hidle, hnot⟩ := hm
  cases e with
  | pipeIn p => exact absurd (hev ▸ List.mem_cons_self) (hpipes.2 p).1
  | pipeOut p => exact absurd (hev ▸ List.mem_cons_self) (hpipes.2 p).2
  | timer t => exact absurd (by simp [hev]) (hidle.2 t)
  | transport t =>
      have hcall := transportEvent_closed (s := { s with events := rest }) t (by simp [hsock]) hpipes.1
      unfold deliver
      simp only [hcall, ok_bind]
      refine Or.inl ⟨_, _, rfl, ⟨h.idLt, raised_tail hraised,
        h.net.pop hev (by simp) (by simp), ?_, fun hne => absurd hsock hne⟩,
        .keep (keeps_xreq s s.xreq rest) (untouched_of_event hev (by simp) (by simp)),
        fun _ => rfl⟩
      unfold MachineInv
      simp only [hsock]
      exact ⟨hpipes.pop hev, hsent, hstate, hidle.pop hev,
        fun hmem => hnot (hev ▸ List.mem_cons_of_mem _ hmem)⟩
  | sockStopped => exact absurd (hev ▸ List.mem_cons_self) hnot

theorem deliver_spec {s : Req} (h : Inv s) (hne : s.events ≠ []) :
    Stepped s .deliver (s.next .deliver) := by
  cases hev : s.events with
  | nil => exact absurd hev hne
  | cons e rest =>
      have hsock : (s.sock = .active ∨ s.sock = .stoppingEps) ∨ s.sock = .stopping ∨
          s.sock = .fini := by
        cases s.sock <;> simp
      unfold next
      simp only [hev]
      rcases hsock with hsock | hsock | hsock
      · exact deliver_open h hsock hev
      · exact deliver_stopping h hsock hev
      · exact deliver_fini h hsock hev

/-! ## The other steps -/

/-- A report of a transport is queued. -/
theorem notify_spec {s : Req} (e : TransportEvent) (h : Inv s) :
    Stepped s (.notify e) (s.next (.notify e)) := by
  refine Or.inl ⟨_, _, rfl, ⟨h.idLt, ?_, ?_, ?_, h.request⟩, .kept ?_ (by simp), fun _ => rfl⟩
  · rw [List.filter_append]
    simpa [isRaised] using h.raised
  · exact h.net.congr rfl rfl rfl (fun p => by simp) (fun p => by simp)
  · have hm := h.machine
    unfold MachineInv at hm ⊢
    have hstop : .sockStopped ∈ s.events ++ [.transport e] ↔ .sockStopped ∈ s.events := by simp
    cases hsock : s.sock with
    | active | stoppingEps =>
        simp only [hsock, hstop] at hm ⊢
        exact ⟨hm.1, hm.2.1, hsock ▸ hm.2.2.push (by simp)⟩
    | stopping =>
        simp only [hsock, hstop] at hm ⊢
        refine ⟨hm.1.push (by simp) (by simp), hm.2.1, hm.2.2.imp ?_ ?_⟩
        · rintro ⟨h1, h2, h3, h4⟩
          exact ⟨h1, h2, h3.push (by simp), h4⟩
        · rintro ⟨h1, h2, h3, h4⟩
          exact ⟨h1, h2, h3.push (by simp), h4⟩
    | fini =>
        simp only [hsock, hstop] at hm ⊢
        exact ⟨hm.1.push (by simp) (by simp), hm.2.1, hm.2.2.1, hm.2.2.2.1.push (by simp),
          hm.2.2.2.2⟩
  · exact keeps_xreq s s.xreq _

/-- The user sends a request. -/
theorem csend_spec {s : Req} (body : List UInt8) (h : Inv s) (hsock : s.sock = .active)
    (hev : s.events = []) : Stepped s (.csend body) (s.next (.csend body)) := by
  obtain ⟨hopen, hstate⟩ := h.isOpen (Or.inl hsock)
  obtain ⟨msg, hput, hmis⟩ : ∃ msg, (s.request.term.1.put
      { sphdr := putl (setTopBit ((s.id + 1) % 2 ^ 32)), body := body }) = (.live msg, []) ∧
      s.request.term.2 = [] := by
    have hstale := hopen.request
    cases hr : s.request with
    | blank => exact ⟨_, rfl, rfl⟩
    | live m => exact ⟨_, rfl, rfl⟩
    | stale m => simp [hr, Slot.isStale] at hstale
  unfold next csend
  simp only [hput, hmis, List.append_nil]
  let s₁ : Req := { s with
    id := (s.id + 1) % 2 ^ 32, request := .live msg, sends := s.sends + 1 }
  have hopen₁ : Open s₁ :=
    ⟨hopen.1, hopen.2, hopen.3, Nat.mod_lt _ (by decide), hopen.5, rfl⟩
  have hnet₁ : NetInv s₁ := Xreq.Inv.newEpoch h.net fun p hp =>
    List.not_mem_nil (hev ▸ hp)
  have hstate₁ : StateInv s₁ :=
    hstate.transfer rfl rfl rfl (fun h => h) (fun _ h => h) (fun _ h => h) (fun _ _ h => h)
  rcases feed_sent hopen₁.fsm hstate₁ hnet₁ hev rfl with ⟨s', hcall, hframe, hst', hnet', hP⟩ |
    ⟨hcall, hneg⟩
  · refine Or.inl ⟨s', .ok, ?_, (hopen₁.frame hframe).inv hst' hnet', ?_, fun _ => hframe.resendIvl⟩
    · rw [show s₁.action .sent = .ok s' from hcall]
      rfl
    · refine .asked body rfl hframe.sends ?_ hframe.reply hframe.misuse ?_ hP
      · rw [hframe.request]
        rfl
      · rw [hframe.sock]
        exact hsock
  · refine Or.inr (Or.inl ⟨?_, hneg⟩)
    rw [show s₁.action .sent = .error .assertion from hcall]
    rfl

/-- In DONE the reply is moved out of its slot. -/
theorem crecv_done {s : Req} (hfsm : s.fsm = .active) (hdone : s.state = .done) :
    s.crecv = .ok ({ s with
      reply := .blank, misuse := s.misuse ++ s.reply.read, state := .passive },
      .reply s.reply) := by
  simp [crecv, inprogress, action, feed, handler, hfsm, hdone]

/-- The user asks for the reply. -/
theorem crecv_spec {s : Req} (h : Inv s) (hsock : s.sock = .active) :
    Stepped s .crecv (s.next .crecv) := by
  obtain ⟨hopen, hstate⟩ := h.isOpen (Or.inl hsock)
  change Stepped s .crecv s.crecv
  by_cases hdone : s.state = .done
  · rw [crecv_done hopen.fsm hdone]
    refine Or.inl ⟨_, _, rfl, ?_, .handed rfl rfl rfl rfl rfl rfl hsock hdone rfl, fun _ => rfl⟩
    refine Open.inv ⟨hopen.1, hopen.2, hopen.3, hopen.4, hopen.5, hopen.6⟩ ?_ h.net
    unfold StateInv at hstate ⊢
    simp only [hdone] at hstate
    exact hstate
  · unfold crecv
    split
    · exact Or.inl ⟨s, .efsm, rfl, h, .kept (Keeps.refl s) (by simp), fun _ => rfl⟩
    · exact Or.inl ⟨s, .again, rfl, h, .kept (Keeps.refl s) (by simp), fun _ => rfl⟩

/-- `GRID_REQ_RESEND_IVL` is set. -/
theorem setResendIvl_spec {s : Req} (ivl : Int) (h : Inv s) :
    Stepped s (.setResendIvl ivl) (s.next (.setResendIvl ivl)) := by
  refine Or.inl ⟨_, _, rfl, ⟨h.idLt, h.raised, h.net, ?_, h.request⟩, .kept ?_ (by simp),
    fun hne => absurd rfl (hne ivl)⟩
  · have hm := h.machine
    unfold MachineInv StateInv at hm ⊢
    exact hm
  · exact ⟨rfl, rfl, rfl, rfl, rfl, fun h => h, fun h => h, fun h => h⟩

/-- The socket is closed. -/
theorem close_spec {s : Req} (h : Inv s) (hsock : s.sock = .active) :
    Stepped s .close (s.next .close) := by
  obtain ⟨hopen, hstate⟩ := h.isOpen (Or.inl hsock)
  refine Or.inl ⟨_, _, rfl, ?_, .kept ?_ (by simp), fun _ => rfl⟩
  · refine Open.inv ⟨Or.inr rfl, hopen.2, hopen.3, hopen.4, hopen.5, hopen.6⟩ ?_ (Xreq.Inv.close h.net)
    exact hstate.transfer rfl rfl rfl (fun h => h) (fun _ h => h) (fun _ h => h) (fun _ _ h => h)
  · exact ⟨rfl, rfl, rfl, rfl, rfl, fun hh => by simp at hh, fun h => h, fun h => h⟩

/-! ## The worker -/

/-- The timer moves on, with what it has to report. -/
theorem timer_update {s : Req} {t' : Timer} {events : List Event} (h : Inv s) (hev : s.events = [])
    (hmove : s.timer.Running ∧ t'.Running ∧ (events = [] ∨ events = [.timer .timeout]) ∨
      s.timer.Stopping ∧
        (t'.Stopping ∧ events = [] ∨ t'.Quiet ∧ events = [.timer .stopped])) :
    Inv { s with timer := t', events := events } := by
  have hidle : ¬ TimerIdle s := by
    rintro ⟨hq, -⟩
    rcases hmove with ⟨hr, -⟩ | ⟨hs, -⟩
    · exact absurd (hq.1.symm.trans hr.1) (by simp)
    · exact absurd (hq.1.symm.trans hs.1) (by simp)
  have hone : ∀ e, Pending [.timer e] e := fun e => ⟨[], rfl, noTimer_nil⟩
  have hrunning : TimerRunning s → TimerRunning { s with timer := t', events := events } := by
    rintro ⟨hr, -⟩
    rcases hmove with ⟨-, hr', rfl | rfl⟩ | ⟨hs, -⟩
    · exact ⟨hr', Or.inl noTimer_nil⟩
    · exact ⟨hr', Or.inr (hone _)⟩
    · exact absurd (hr.1.symm.trans hs.1) (by simp)
  have hstopping : TimerStopping s → TimerStopping { s with timer := t', events := events } := by
    rintro (⟨hs, -⟩ | ⟨-, hp⟩)
    · rcases hmove with ⟨hr, -⟩ | ⟨-, ⟨hs', rfl⟩ | ⟨hq', rfl⟩⟩
      · exact absurd (hs.1.symm.trans hr.1) (by simp)
      · exact Or.inl ⟨hs', noTimer_nil⟩
      · exact Or.inr ⟨hq', hone _⟩
    · exact absurd (hev ▸ hp) not_pending_nil
  have honly : ∀ e ∈ events, ∃ t, e = .timer t := by
    intro e he
    rcases hmove with ⟨-, -, rfl | rfl⟩ | ⟨-, ⟨-, rfl⟩ | ⟨-, rfl⟩⟩ <;> simp_all
  have hstop : .sockStopped ∉ events := by
    intro hmem
    obtain ⟨t, ht⟩ := honly _ hmem
    exact absurd ht (by simp)
  have hnopipe : ∀ p, .pipeIn p ∉ events ∧ .pipeOut p ∉ events := by
    refine fun p => ⟨fun hp => ?_, fun hp => ?_⟩
    · obtain ⟨t, ht⟩ := honly _ hp
      exact absurd ht (by simp)
    · obtain ⟨t, ht⟩ := honly _ hp
      exact absurd ht (by simp)
  refine ⟨h.idLt, ?_, ?_, ?_, h.request⟩
  · rcases hmove with ⟨-, -, rfl | rfl⟩ | ⟨-, ⟨-, rfl⟩ | ⟨-, rfl⟩⟩ <;>
      exact List.Nodup.filter _ (by simp)
  · refine h.net.congr rfl rfl rfl (fun p => ?_) (fun p => ?_)
    · rw [hev]
      exact ⟨fun hp => absurd hp (hnopipe p).1, fun hp => absurd hp List.not_mem_nil⟩
    · rw [hev]
      exact ⟨fun hp => absurd hp (hnopipe p).2, fun hp => absurd hp List.not_mem_nil⟩
  · have hstate : StateInv s → StateInv { s with timer := t', events := events } := by
      intro hst
      unfold StateInv at hst ⊢
      cases hs : s.state with
      | idle => simp only [hs] at hst
      | stopping => simp only [hs] at hst
      | passive | done | delayed =>
          simp only [hs] at hst
          exact absurd hst.1 hidle
      | active =>
          simp only [hs] at hst ⊢
          exact ⟨hrunning hst.1, hst.2⟩
      | timedOut | cancelling | stoppingTimer =>
          simp only [hs] at hst ⊢
          exact ⟨hstopping hst.1, hst.2⟩
    have hm := h.machine
    unfold MachineInv at hm ⊢
    cases hsock : s.sock with
    | active =>
        simp only [hsock] at hm ⊢
        exact ⟨hm.1, hstop, hsock ▸ hstate hm.2.2⟩
    | stoppingEps =>
        simp only [hsock] at hm ⊢
        exact ⟨hm.1, hstop, hsock ▸ hstate hm.2.2⟩
    | stopping =>
        simp only [hsock] at hm ⊢
        refine ⟨⟨hm.1.1, hnopipe⟩, hm.2.1, Or.inl ?_⟩
        rcases hm.2.2 with ⟨h1, h2, h3, -⟩ | ⟨-, -, h3, -⟩
        · exact ⟨h1, h2, hstopping h3, hstop⟩
        · exact absurd h3 hidle
    | fini =>
        simp only [hsock] at hm ⊢
        exact absurd hm.2.2.2.1 hidle

/-- Without events on their way a timer that is not quiet is running or stopping. -/
theorem timer_busy {s : Req} (h : Inv s) (hev : s.events = []) :
    s.timer.Quiet ∨ s.timer.Running ∨ s.timer.Stopping := by
  have hstop : TimerStopping s → s.timer.Stopping := fun h =>
    (h.resolve_right fun hp => absurd (hev ▸ hp.2) not_pending_nil).1
  have hstate : StateInv s → s.timer.Quiet ∨ s.timer.Running ∨ s.timer.Stopping := by
    intro hst
    unfold StateInv at hst
    cases hs : s.state with
    | idle => simp only [hs] at hst
    | stopping => simp only [hs] at hst
    | passive | done | delayed =>
        simp only [hs] at hst
        exact Or.inl hst.1.1
    | active =>
        simp only [hs] at hst
        exact Or.inr (Or.inl hst.1.1)
    | timedOut | cancelling | stoppingTimer =>
        simp only [hs] at hst
        exact Or.inr (Or.inr (hstop hst.1))
  have hm := h.machine
  unfold MachineInv at hm
  cases hsock : s.sock with
  | active | stoppingEps =>
      simp only [hsock] at hm
      exact hstate hm.2.2
  | stopping =>
      simp only [hsock] at hm
      rcases hm.2.2 with ⟨-, -, h3, -⟩ | ⟨-, -, h3, -⟩
      · exact Or.inr (Or.inr (hstop h3))
      · exact Or.inl h3.1
  | fini =>
      simp only [hsock] at hm
      exact Or.inl hm.2.2.2.1.1

theorem keeps_timer (s : Req) (t' : Timer) (events : List Event) :
    Keeps s { s with timer := t', events := events } :=
  ⟨rfl, rfl, rfl, rfl, rfl, fun h => h, fun h => h, fun h => h⟩

/-- The worker executes a task of the timer. -/
theorem workerTask_spec {s : Req} (h : Inv s) (htasks : s.timer.tasks ≠ [])
    (hev : s.events = []) : Stepped s .workerTask (s.next .workerTask) := by
  unfold next
  rcases timer_busy h hev with hq | hr | hs
  · exact absurd hq.2.2.1 htasks
  · obtain ⟨t', hcall, hr'⟩ := Timer.runTask_running hr
    refine Or.inl ⟨{ s with timer := t', events := [] }, .none, ?_,
      timer_update h hev (Or.inl ⟨hr, hr', Or.inl rfl⟩), .kept (keeps_timer s t' _) (by simp),
      fun _ => rfl⟩
    simp [hcall, raiseTimer, hev]
  · rcases Timer.runTask_stopping hs with ⟨t', hcall, hs'⟩ | ⟨t', hcall, hq'⟩
    · refine Or.inl ⟨{ s with timer := t', events := [] }, .none, ?_,
        timer_update h hev (Or.inr ⟨hs, Or.inl ⟨hs', rfl⟩⟩), .kept (keeps_timer s t' _) (by simp),
        fun _ => rfl⟩
      simp [hcall, raiseTimer, hev]
    · refine Or.inl ⟨{ s with timer := t', events := [.timer .stopped] }, .none, ?_,
        timer_update h hev (Or.inr ⟨hs, Or.inr ⟨hq', rfl⟩⟩), .kept (keeps_timer s t' _) (by simp),
        fun _ => rfl⟩
      simp [hcall, raiseTimer, Req.raise, hev]

/-- The worker finds that the timer has expired. -/
theorem workerTimeout_spec {s : Req} (h : Inv s) (harmed : s.timer.armed = true)
    (hev : s.events = []) : Stepped s .workerTimeout (s.next .workerTimeout) := by
  unfold next
  rcases timer_busy h hev with hq | hr | hs
  · exact absurd (harmed.symm.trans hq.2.2.2) (by simp)
  · obtain ⟨t', hcall, hr'⟩ := Timer.expire_running hr harmed
    refine Or.inl ⟨{ s with timer := t', events := [.timer .timeout] }, .none, ?_,
      timer_update h hev (Or.inl ⟨hr, hr', Or.inr rfl⟩), .kept (keeps_timer s t' _) (by simp),
      fun _ => rfl⟩
    simp [hcall, raiseTimer, Req.raise, hev]
  · obtain ⟨t', hcall, hs'⟩ := Timer.expire_stopping hs
    refine Or.inl ⟨{ s with timer := t', events := [] }, .none, ?_,
      timer_update h hev (Or.inr ⟨hs, Or.inl ⟨hs', rfl⟩⟩), .kept (keeps_timer s t' _) (by simp),
      fun _ => rfl⟩
    simp [hcall, raiseTimer, hev]

/-- The last endpoint has stopped: the request machine is stopped. -/
theorem epsStopped_spec {s : Req} (h : Inv s) (hsock : s.sock = .stoppingEps)
    (hev : s.events = []) (hpipes : ∀ p, s.xreq.pipes p = none) :
    Stepped s .epsStopped (s.next .epsStopped) := by
  obtain ⟨hopen, hstate⟩ := h.isOpen (Or.inr hsock)
  have hsent : s.sentTo = none := by
    cases hs : s.sentTo with
    | none => rfl
    | some p => exact absurd (hpipes p) (hstate.of_sentTo hs).2.2
  have hreq := hopen.request
  have hnet : ∀ events, (∀ p, .pipeIn p ∉ events ∧ .pipeOut p ∉ events) → ∀ s' : Req,
      s'.sock = .stopping → s'.xreq = s.xreq → s'.events = events → NetInv s' := by
    intro events hno s' h1 h2 h3
    have hclosed := @Xreq.Inv.newEpoch _ _ _ _ _ s'.sends (Xreq.Inv.close h.net)
      (fun p hp => List.not_mem_nil (hev ▸ hp))
    unfold NetInv
    rw [h1, h2, h3]
    refine hclosed.congr (fun p => ?_) (fun p => ?_)
    · rw [hev]
      exact ⟨fun hp => absurd hp (hno p).1, fun hp => absurd hp List.not_mem_nil⟩
    · rw [hev]
      exact ⟨fun hp => absurd hp (hno p).2, fun hp => absurd hp List.not_mem_nil⟩
  rcases timer_busy h hev with hq | hr | hs
  · -- the timer is idle and the machine has stopped at once
    have hcall : s.next .epsStopped = .ok ({ s with
        sock := .stopping, fsm := .idle, state := .idle, events := [.sockStopped] }, .none) := by
      unfold next stop shutdown
      simp [hopen.fsm, Timer.stop, hq.1, Timer.isIdle, stoppedActive, hev, Req.raise]
    refine Or.inl ⟨_, _, hcall, ⟨h.idLt,
      (List.nodup_singleton _).filter _, ?_, ?_, fun _ => hreq⟩,
      .kept ?_ (by simp), fun _ => rfl⟩
    · exact hnet [.sockStopped] (by simp) _ rfl rfl rfl
    · exact ⟨⟨hpipes, by simp⟩, hsent, Or.inr ⟨rfl, rfl, ⟨hq, by simp [NoTimer]⟩, by simp⟩⟩
    · exact ⟨rfl, rfl, rfl, rfl, rfl, fun hh => by simp at hh,
        fun hh => by simp [HoldsReply] at hh, fun hh => by simp [inprogress] at hh⟩
  · exact absurd (hstate.of_running hr).2 (by simp [hsent])
  · have hcall : s.next .epsStopped = .ok ({ s with
        sock := .stopping, fsm := .stopping, state := .stopping }, .none) := by
      unfold next stop shutdown
      simp [hopen.fsm, Timer.stop, hs.1, Timer.isIdle]
    refine Or.inl ⟨_, _, hcall, ⟨h.idLt, h.raised, ?_, ?_, fun _ => hreq⟩,
      .kept ?_ (by simp), fun _ => rfl⟩
    · exact hnet [] (by simp) _ rfl rfl hev
    · exact ⟨⟨hpipes, by simp [hev]⟩, hsent,
        Or.inl ⟨rfl, rfl, Or.inl ⟨hs, hev ▸ noTimer_nil⟩, hopen.noStop⟩⟩
    · exact ⟨rfl, rfl, rfl, rfl, rfl, fun hh => by simp at hh,
        fun hh => by simp [HoldsReply] at hh, fun hh => by simp [inprogress] at hh⟩

/-- What every step does that can be taken. -/
theorem step_spec {s : Req} {l : Label} (h : Inv s) (hl : Enabled s l) :
    Stepped s l (s.next l) := by
  cases l with
  | notify e => exact notify_spec e h
  | deliver => exact deliver_spec h hl
  | csend body => exact csend_spec body h hl.1 hl.2
  | crecv => exact crecv_spec h hl.1
  | setResendIvl ivl => exact setResendIvl_spec ivl h
  | workerTask => exact workerTask_spec h hl.1 hl.2
  | workerTimeout => exact workerTimeout_spec h hl.1 hl.2
  | close => exact close_spec h hl.1
  | epsStopped => exact epsStopped_spec h hl.1 hl.2.1 hl.2.2

end Req

end GridMq.ReqRep
