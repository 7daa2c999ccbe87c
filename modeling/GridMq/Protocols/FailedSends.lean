import GridMq.Core.Assemble
import GridMq.Protocols.SocketTypes

set_option autoImplicit false

/-!
# Sends that fail

A body and control data that were allocated by `grid_allocmsg` are moved into the message
before it is sent, and are the caller's again when the send fails.  The body is detached
from the message for that; the control data are not, and are released with the message.
-/

namespace GridMq.Protocols

open GridMq.Core GridMq.ReqRep GridMq.Survey

/-! ## The message is left alone -/

/-- The type leaves a message that it does not take as it was. -/
def LeavesAlone (T : SendType) : Prop :=
  ∀ s msg e, T.send s msg ≠ .ok (.emptied e)

/-- A SURVEYOR socket can always be sent to: `-EAGAIN` is not returned. -/
theorem surveyor_send_ne_again {s s' : Surveyor} {msg : Msg} :
    s.send msg ≠ .ok (s', .again) := by
  intro h
  obtain ⟨_, -, h⟩ := bind_eq_ok_iff.mp h
  simp only at h
  split at h
  · rw [if_neg (by simp [Xsurveyor.events])] at h
    obtain ⟨s₁, -, h⟩ := bind_eq_ok_iff.mp h
    exact absurd (Prod.mk.inj (Except.ok.inj h)).2 (by simp)
  · obtain ⟨s₁, -, h⟩ := bind_eq_ok_iff.mp h
    exact absurd (Prod.mk.inj (Except.ok.inj h)).2 (by simp)

theorem sentOr_ne_emptied {e e' : SendErrno} {sent : Bool} :
    SocketType.sentOr e sent ≠ .emptied e' := by
  cases sent <;> simp [SocketType.sentOr]

theorem leavesAlone (t : SocketType) : LeavesAlone t.sendType := by
  intro s msg e h
  change t.send s msg = _ at h
  cases t with
  | surveyor =>
      obtain ⟨⟨s', r⟩, hcall, hr⟩ := map_eq_ok h
      obtain ⟨_, -, hcall⟩ := bind_eq_ok_iff.mp hcall
      have hne : r ≠ .again := by
        rintro rfl
        exact surveyor_send_ne_again (liftAbort_eq_ok hcall)
      exact absurd hr (by simp [hne])
  | pull | xpull | sub | xsub => exact absurd h (by simp [SocketType.send])
  | pub | xpub | req | xrep | xsurveyor | xrespondent =>
      obtain ⟨r, -, hr⟩ := map_eq_ok h
      exact absurd hr (by simp)
  | pair | xpair | push | xpush | bus | xbus | xreq | rep | respondent =>
      obtain ⟨r, -, hr⟩ := map_eq_ok h
      exact sentOr_ne_emptied hr

variable {T : SendType} {dontwait : Bool} {heap heap' : ChunkHeap}

/-- What a turn comes to is the answer of the type, or the socket was terminated or closed. -/
theorem attempt_cases {turn : SendTurn T} {msg : Msg} {r : SendResult}
    (h : turn.attempt msg = .ok r) :
    T.send turn.type msg = .ok r ∨ r = .refused .eterm ∨ r = .refused .ebadf := by
  unfold SendTurn.attempt at h
  cases hsock : turn.sock with
  | active | init =>
      rw [hsock] at h
      exact Or.inl h
  | zombie =>
      rw [hsock] at h
      exact Or.inr (Or.inl (Except.ok.inj h).symm)
  | stoppingEps | stopping | fini =>
      rw [hsock] at h
      exact Or.inr (Or.inr (Except.ok.inj h).symm)

theorem sockSendTurn_cases (hT : LeavesAlone T) {turn : SendTurn T} {msg : GridMsg}
    {held : List Nat} {s : SockSend} (h : sockSendTurn dontwait heap turn msg held = .ok s) :
    s.outcome = .sent ∨ s.msg = msg ∧ s.held = held := by
  obtain ⟨r, hattempt, h⟩ := bind_eq_ok_iff.mp h
  cases r with
  | taken =>
      obtain rfl := Except.ok.inj h
      exact Or.inl rfl
  | refused e =>
      obtain rfl := Except.ok.inj h
      exact Or.inr ⟨rfl, rfl⟩
  | emptied e =>
      rcases attempt_cases hattempt with hsend | heq | heq
      · exact absurd hsend (hT _ _ _)
      · exact absurd heq (by simp)
      · exact absurd heq (by simp)

/-- Whatever the turns of the loop are, a message that was not sent is as it was. -/
theorem sockSendLoop_cases (hT : LeavesAlone T) (later : List (WaitResult × SendTurn T)) :
    ∀ {turn : SendTurn T} {msg : GridMsg} {held : List Nat} {s : SockSend},
      sockSendLoop dontwait heap later turn msg held = .ok s →
        s.outcome = .sent ∨ s.msg = msg ∧ s.held = held := by
  induction later with
  | nil =>
      intro turn msg held s h
      exact sockSendTurn_cases hT h
  | cons w later ih =>
      intro turn msg held s h
      obtain ⟨s₁, hturn, h⟩ := bind_eq_ok_iff.mp h
      have hkept := sockSendTurn_cases hT hturn
      split at h
      · rename_i hwait
        obtain ⟨hmsg, hheld⟩ := hkept.resolve_left (by simp [hwait])
        rw [hmsg, hheld] at h
        split at h
        · exact ih h
        · obtain rfl := Except.ok.inj h
          exact Or.inr ⟨rfl, rfl⟩
      · obtain rfl := Except.ok.inj h
        exact hkept

theorem sockSend_failed (hT : LeavesAlone T) {turn : SendTurn T}
    {later : List (WaitResult × SendTurn T)} {msg : GridMsg} {s : SockSend} {e : SendErrno}
    (h : sockSend T dontwait heap turn later msg = .ok s) (hfail : s.outcome = .failed e) :
    s.msg = msg ∧ s.held = [] := by
  unfold sockSend at h
  split at h
  · obtain rfl := Except.ok.inj h
    exact ⟨rfl, rfl⟩
  · exact (sockSendLoop_cases hT later h).resolve_left (by simp [hfail])

/-! ## What is given back -/

/-- The release of a message changes the chunk of its ancillary data. -/
theorem term_hdrs {msg : GridMsg} (h : msg.term heap = .ok heap') {a : Nat}
    (hhdrs : msg.hdrs = .chunk a) (hsphdr : a ∉ msg.sphdr.addrs) (hbody : a ∉ msg.body.addrs) :
    heap'.chunks a ≠ heap.chunks a := by
  obtain ⟨heap₁, h1, h⟩ := bind_eq_ok_iff.mp h
  obtain ⟨heap₂, h2, h3⟩ := bind_eq_ok_iff.mp h
  rw [hhdrs] at h2
  rw [ChunkHeap.term_other h3 hbody, ← ChunkHeap.term_other h1 hsphdr]
  exact (ChunkHeap.free_spec h2).2.1

/-- The undoing of a failed send: the chunk in the control data is changed, and every other
chunk of before is as it was. -/
theorem undo_spec {heap₀ : ChunkHeap} {hdr : Msghdr} {src : MsgBody} {msg : GridMsg}
    (hmsg : Assembled heap₀ heap hdr src msg) (h : undo heap src msg = .ok heap') {a : Nat}
    (ha : a < heap₀.next) :
    heap'.chunks a = heap₀.chunks a ↔ hdr.control.own ≠ some a := by
  have hsphdr : a ∉ msg.sphdr.addrs := by
    intro hmem
    exact absurd (hmsg.sphdr a hmem) (Nat.not_le.mpr ha)
  have hterm : ∃ body, ({ msg with body := body } : GridMsg).term heap = .ok heap' ∧
      a ∉ body.addrs := by
    cases src with
    | chunk addr => exact ⟨.small [], h, List.not_mem_nil⟩
    | scatter bytes => exact ⟨msg.body, h, From.notMem hmsg.body ha (by simp [MsgBody.own])⟩
  obtain ⟨body, hterm, hbody⟩ := hterm
  rw [← hmsg.extend.same a ha]
  refine ⟨fun hsame hown => ?_, fun hne => ?_⟩
  · have hhdrs : msg.hdrs = .chunk a := by
      have hfrom := hmsg.hdrs
      rw [hown] at hfrom
      exact hfrom
    exact term_hdrs hterm hhdrs hsphdr hbody hsame
  · apply GridMsg.term_other hterm
    simp only [GridMsg.addrs, List.mem_append, not_or]
    exact ⟨⟨hsphdr, From.notMem hmsg.hdrs ha hne⟩, hbody⟩

/-- The caller has its chunks, and they are what they were. -/
def GivesBack (heap : ChunkHeap) (call : SendCall) (hdr : Msghdr) : Prop :=
  ∀ a ∈ hdr.own, call.heap.chunks a = heap.chunks a ∧ a ∉ call.held

/-- The chunks of the caller are allocated. -/
def Owns (heap : ChunkHeap) (hdr : Msghdr) : Prop := ∀ a ∈ hdr.own, heap.chunks a ≠ none

/-- The call fails in a check of its arguments. -/
def EarlyFailure (hold : Option SendErrno) (hdr : Msghdr) : Prop :=
  ∃ e, checkArgs hold (some hdr) = .error e

theorem checkArgs_hdr {hold : Option SendErrno} {hdr hdr' : Msghdr} {src : MsgBody}
    (h : checkArgs hold (some hdr) = .ok (hdr', src)) : hdr = hdr' := by
  unfold checkArgs at h
  split at h
  · exact absurd h (by simp)
  · split at h
    · exact absurd h (by simp)
    · rename_i heq
      obtain rfl := Option.some.inj heq
      split at h
      · exact absurd h (by simp)
      · exact absurd h (by simp)
      · exact (Prod.mk.inj (Except.ok.inj h)).1
      · obtain ⟨body, -, hbody⟩ := map_eq_ok h
        exact (Prod.mk.inj hbody).1

/-- The end of a call that failed. -/
theorem finish_failed {heap : ChunkHeap} {src : MsgBody} {s : SockSend} {call : SendCall}
    {e : SendErrno} (h : finish heap src s = .ok call) (hfail : call.outcome = .failed e) :
    undo heap src s.msg = .ok call.heap ∧ call.held = s.held ∧ s.outcome = .failed e := by
  unfold finish at h
  split at h
  · rename_i e' hout
    obtain ⟨heap', hundo, hret⟩ := bind_eq_ok_iff.mp h
    obtain rfl := Except.ok.inj hret
    obtain rfl : e' = e := SendOutcome.failed.inj hfail
    exact ⟨liftAbort_eq_ok hundo, rfl, hout⟩
  · obtain rfl := Except.ok.inj h
    exact absurd hfail (by simp)
  · obtain rfl := Except.ok.inj h
    exact absurd hfail (by simp)

/-- A send that fails, on a socket of any type, whatever states of the socket it meets and
however its waits end, gives the chunks of the caller back if and only if there is none in
the control data or the call fails in a check of its arguments. -/
theorem failed_send_gives_back (t : SocketType) {hold : Option SendErrno} {hdr : Msghdr}
    {dontwait : Bool} {fuel : Nat} {turn : SendTurn t.sendType}
    {later : List (WaitResult × SendTurn t.sendType)} {heap : ChunkHeap} {call : SendCall}
    {e : SendErrno} (howns : Owns heap hdr)
    (hcall : sendmsg t.sendType hold (some hdr) dontwait fuel turn later heap = .ok call)
    (hfail : call.outcome = .failed e) :
    GivesBack heap call hdr ↔ (hdr.control.own = none ∨ EarlyFailure hold hdr) := by
  unfold sendmsg at hcall
  cases hargs : checkArgs hold (some hdr) with
  | error e' =>
      rw [hargs] at hcall
      obtain rfl := Except.ok.inj hcall
      exact iff_of_true (fun a _ => ⟨rfl, List.not_mem_nil⟩) (Or.inr ⟨e', hargs⟩)
  | ok r =>
      obtain ⟨hdr', src⟩ := r
      rw [hargs] at hcall
      obtain ⟨⟨heap₁, msg⟩, hmsg, hrest⟩ := bind_eq_ok_iff.mp hcall
      obtain ⟨s, hsend, hfinish⟩ := bind_eq_ok_iff.mp hrest
      obtain rfl := checkArgs_hdr hargs
      have hlate : ¬EarlyFailure hold hdr := by
        rintro ⟨e', he'⟩
        exact absurd (hargs.symm.trans he') (by simp)
      obtain ⟨hundo, hheld', hout⟩ := finish_failed hfinish hfail
      obtain ⟨hsame, hheld⟩ := sockSend_failed (leavesAlone t) hsend hout
      rw [hsame] at hundo
      have hlive : ∀ a ∈ hdr.own, a < heap.next := by
        intro a ha
        obtain ⟨chunk, hchunk⟩ := Option.ne_none_iff_exists'.mp (howns a ha)
        exact ChunkHeap.lt_next hchunk
      rw [or_iff_left hlate]
      refine ⟨fun hback => ?_, fun hnone a ha => ?_⟩
      · by_contra hsome
        obtain ⟨a, ha⟩ := Option.ne_none_iff_exists'.mp hsome
        have hmem : a ∈ hdr.own := List.mem_append_left _ (by simp [ha])
        exact (undo_spec (assemble_spec hmsg) hundo (hlive a hmem)).mp (hback a hmem).1 ha
      · refine ⟨(undo_spec (assemble_spec hmsg) hundo (hlive a ha)).mpr (by simp [hnone]), ?_⟩
        simp [hheld', hheld]

/-- A PUSH socket without a pipe, and a message of `grid_allocmsg` that it cannot send. -/
theorem failed_send_gives_back_push : ∃ call, sendmsg SocketType.push.sendType none
      (some { iov := some [.gridMsg (some 1)] }) true 1 ⟨.active, ({} : Xpush)⟩ []
      (ChunkHeap.alloc {} [97] (by decide)) = .ok call ∧ call.outcome = .failed .eagain ∧
    GivesBack (ChunkHeap.alloc {} [97] (by decide)) call { iov := some [.gridMsg (some 1)] } := by
  have howns : Owns (ChunkHeap.alloc {} [97] (by decide)) { iov := some [.gridMsg (some 1)] } := by
    intro a ha
    obtain rfl : a = 1 := by simpa [Msghdr.own, MsgControl.own] using ha
    simp [ChunkHeap.alloc]
  obtain ⟨call, hcall, hout⟩ : ∃ call, sendmsg SocketType.push.sendType none
      (some { iov := some [.gridMsg (some 1)] }) true 1 ⟨.active, ({} : Xpush)⟩ []
      (ChunkHeap.alloc {} [97] (by decide)) = .ok call ∧ call.outcome = .failed .eagain := ⟨_, rfl, rfl⟩
  exact ⟨call, hcall, hout, (failed_send_gives_back .push howns hcall hout).mpr (Or.inl rfl)⟩

/-- Control data of `grid_allocmsg` are released when the send fails. -/
theorem not_failed_send_gives_back : ¬∀ (t : SocketType) (hold : Option SendErrno)
    (hdr : Msghdr) (dontwait : Bool) (fuel : Nat) (turn : SendTurn t.sendType)
    (later : List (WaitResult × SendTurn t.sendType)) (heap : ChunkHeap) (call : SendCall)
    (e : SendErrno), Owns heap hdr →
    sendmsg t.sendType hold (some hdr) dontwait fuel turn later heap = .ok call →
    call.outcome = .failed e → GivesBack heap call hdr := by
  intro hall
  have howns : Owns (ChunkHeap.alloc {} [] (by decide))
      { iov := some [], control := .gridMsg (some 1) } := by
    intro a ha
    obtain rfl : a = 1 := by simpa [Msghdr.own, MsgControl.own] using ha
    simp [ChunkHeap.alloc]
  have hback := hall .push none { iov := some [], control := .gridMsg (some 1) } true 1
    ⟨.active, ({} : Xpush)⟩ [] (ChunkHeap.alloc {} [] (by decide)) _ .eagain howns rfl rfl
  have hkept := (hback 1 (by simp [Msghdr.own, MsgControl.own])).1
  simp [ChunkHeap.set, ChunkHeap.alloc] at hkept

end GridMq.Protocols
