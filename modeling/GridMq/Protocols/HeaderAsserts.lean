import GridMq.Protocols.FailedSends

set_option autoImplicit false

/-!
# Control data and the header of a message

The property `SP_HDR` of the control data becomes the header of the message, for every
socket type.  REQ and SURVEYOR sockets, and REP and RESPONDENT sockets that have a request,
assert that there is none; BUS sockets refuse a message with one, and the others send it.
-/

namespace GridMq.Protocols

open GridMq.Core GridMq.ReqRep GridMq.Survey

/-! ## The socket types -/

namespace SocketType

/-- The types that assert an empty header. -/
def asserting : SocketType → Bool
  | req | rep | surveyor | respondent => true
  | _ => false

/-- The state in which the assertion is reached. -/
def Asserts : (t : SocketType) → t.State → Prop
  | req, _ => True
  | surveyor, _ => True
  | rep, s => Rep.inprogress s = true
  | respondent, s => Rep.inprogress s = true
  | _, _ => False

end SocketType

/-- What ends a call because of its control data. -/
def Ends (e : SendAbort) : Prop := ∀ a, e ≠ .other a

theorem headerAssert_cases (msg : Msg) :
    msg.sphdr = [] ∧ headerAssert msg = .ok () ∨
      msg.sphdr ≠ [] ∧ headerAssert msg = .error .header := by
  unfold headerAssert
  by_cases h : msg.sphdr = []
  · exact Or.inl ⟨h, if_pos (by simp [h])⟩
  · exact Or.inr ⟨h, if_neg (by simpa using h)⟩

theorem liftAbort_ne_error {α : Type} {x : Except Abort α} {e : SendAbort} (he : Ends e) :
    liftAbort x ≠ .error e := by
  cases x with
  | ok a => simp [liftAbort, Except.mapError]
  | error a =>
      intro h
      exact he a (Except.error.inj h).symm

theorem map_eq_error {ε α β : Type} {x : Except ε α} {f : α → β} {e : ε} :
    x.map f = .error e ↔ x = .error e := by
  cases x <;> simp [Except.map]

/-- The assertion, followed by what knows nothing of control data. -/
theorem asserted_eq_error {α : Type} {msg : Msg} {x : Except Abort α} {e : SendAbort}
    (he : Ends e) : (headerAssert msg >>= fun _ => liftAbort x) = .error e ↔
      e = .header ∧ msg.sphdr ≠ [] := by
  rcases headerAssert_cases msg with ⟨hnil, hok⟩ | ⟨hne, herr⟩
  · rw [hok, ok_bind]
    exact iff_of_false (liftAbort_ne_error he) (fun h => h.2 hnil)
  · rw [herr, error_bind, Except.error.injEq]
    exact ⟨fun h => ⟨h.symm, hne⟩, fun h => h.1.symm⟩

theorem repSend_eq_error {s : Rep} {msg : Msg} {e : SendAbort} (he : Ends e) :
    repSend s msg = .error e ↔ e = .header ∧ s.inprogress = true ∧ msg.sphdr ≠ [] := by
  unfold repSend
  cases hprog : s.inprogress with
  | false => simp
  | true =>
      rw [if_neg (by simp), asserted_eq_error he]
      simp

/-- The only end of a `send` that has to do with control data is the assertion. -/
theorem send_eq_error (t : SocketType) (s : t.State) (msg : Msg) {e : SendAbort}
    (he : Ends e) : t.send s msg = .error e ↔ e = .header ∧ t.Asserts s ∧ msg.sphdr ≠ [] := by
  cases t with
  | req =>
      simp only [SocketType.send, map_eq_error, reqCsend, SocketType.Asserts, true_and]
      exact asserted_eq_error he
  | surveyor =>
      simp only [SocketType.send, map_eq_error, surveyorSend, SocketType.Asserts, true_and]
      exact asserted_eq_error he
  | rep =>
      simp only [SocketType.send, map_eq_error, SocketType.Asserts]
      exact repSend_eq_error he
  | respondent =>
      simp only [SocketType.send, map_eq_error, SocketType.Asserts, respondentSend]
      exact repSend_eq_error he
  | pull | xpull | sub | xsub =>
      simp only [SocketType.send, SocketType.Asserts, false_and, and_false, iff_false]
      intro h
      exact he _ (Except.error.inj h).symm
  | pair | xpair | push | xpush | pub | xpub | bus | xbus | xreq | xrep | xsurveyor
  | xrespondent =>
      simp only [SocketType.send, map_eq_error, SocketType.Asserts, false_and, and_false,
        iff_false]
      exact liftAbort_ne_error he

/-- A type that asserts an empty header never makes the call wait. -/
theorem send_ne_again {t : SocketType} (ht : t.asserting = true) {s : t.State} {msg : Msg} :
    t.send s msg ≠ .ok (.refused .eagain) := by
  intro h
  cases t with
  | req =>
      obtain ⟨r, -, hr⟩ := map_eq_ok h
      exact absurd hr (by simp)
  | surveyor =>
      obtain ⟨r, -, hr⟩ := map_eq_ok h
      split at hr
      · exact absurd hr (by simp)
      · exact absurd hr (by simp)
  | rep | respondent =>
      obtain ⟨r, -, hr⟩ := map_eq_ok h
      cases hb : (r.2 == .ok) <;> simp [hb, SocketType.sentOr] at hr
  | _ => exact absurd ht (by simp [SocketType.asserting])

theorem not_asserts {t : SocketType} (ht : t.asserting = false) (s : t.State) :
    ¬t.Asserts s := by
  intro h
  cases t with
  | req | rep | surveyor | respondent => exact absurd ht (by simp [SocketType.asserting])
  | _ => exact h

theorem asserting_nosend {t : SocketType} (ht : t.asserting = true) : t.nosend = false := by
  cases t with
  | pull | xpull | sub | xsub => exact absurd ht (by simp [SocketType.asserting])
  | _ => rfl

/-! ## The call -/

/-- The turn comes to the assertion of the socket type. -/
def Reaches {t : SocketType} (turn : SendTurn t.sendType) : Prop :=
  (turn.sock = .init ∨ turn.sock = .active) ∧ t.Asserts turn.type

variable {t : SocketType} {dontwait : Bool} {heap : ChunkHeap} {e : SendAbort}

theorem attempt_eq_error {turn : SendTurn t.sendType} {msg : Msg} (he : Ends e) :
    turn.attempt msg = .error e ↔ e = .header ∧ Reaches turn ∧ msg.sphdr ≠ [] := by
  have hsend := send_eq_error t turn.type msg he
  unfold SendTurn.attempt Reaches
  cases hsock : turn.sock with
  | active | init =>
      simp only [or_true, true_or, true_and]
      exact hsend
  | zombie | stoppingEps | stopping | fini => simp

theorem sockSendTurn_eq_error {turn : SendTurn t.sendType} {msg : GridMsg} {held : List Nat}
    (he : Ends e) : sockSendTurn dontwait heap turn msg held = .error e ↔
      e = .header ∧ Reaches turn ∧ (msg.view heap).sphdr ≠ [] := by
  rw [← attempt_eq_error he]
  unfold sockSendTurn
  cases hattempt : turn.attempt (msg.view heap) with
  | error e' => simp
  | ok r => cases r <;> simp

/-- A type that asserts an empty header takes one turn. -/
theorem sockSendTurn_ne_waiting (ht : t.asserting = true) {turn : SendTurn t.sendType}
    {msg : GridMsg} {held : List Nat} {s : SockSend}
    (h : sockSendTurn dontwait heap turn msg held = .ok s) : s.outcome ≠ .waiting := by
  obtain ⟨r, hattempt, h⟩ := bind_eq_ok_iff.mp h
  cases r with
  | taken =>
      obtain rfl := Except.ok.inj h
      simp
  | emptied e =>
      rcases attempt_cases hattempt with hsend | heq | heq
      · exact absurd hsend (leavesAlone t _ _ _)
      · exact absurd heq (by simp)
      · exact absurd heq (by simp)
  | refused e =>
      obtain rfl := Except.ok.inj h
      have hne : e ≠ .eagain := by
        rintro rfl
        rcases attempt_cases hattempt with hsend | heq | heq
        · exact send_ne_again ht hsend
        · exact absurd heq (by simp)
        · exact absurd heq (by simp)
      simp [SockSend.refuse, hne]

/-- The loop ends in the assertion if its first turn does. -/
theorem sockSendLoop_eq_error (he : Ends e)
    (later : List (WaitResult × SendTurn t.sendType)) :
    ∀ {turn : SendTurn t.sendType} {msg : GridMsg} {held : List Nat},
      sockSendLoop dontwait heap later turn msg held = .error e ↔
        e = .header ∧ Reaches turn ∧ (msg.view heap).sphdr ≠ [] := by
  induction later with
  | nil => exact sockSendTurn_eq_error he
  | cons w later ih =>
      intro turn msg held
      have hfirst : sockSendTurn dontwait heap turn msg held = .error e ↔
          e = .header ∧ Reaches turn ∧ (msg.view heap).sphdr ≠ [] := sockSendTurn_eq_error he
      rw [← hfirst]
      unfold sockSendLoop
      cases hturn : sockSendTurn dontwait heap turn msg held with
      | error e' => simp
      | ok s =>
          rw [ok_bind]
          refine iff_of_false ?_ (by simp)
          split
          · rename_i hwait
            have ht : t.asserting = false := by
              rw [← Bool.not_eq_true]
              intro ht
              exact sockSendTurn_ne_waiting ht hturn hwait
            split
            · rw [ih]
              rintro ⟨-, ⟨-, hasserts⟩, -⟩
              exact not_asserts ht _ hasserts
            · simp
          · simp

theorem sockSend_eq_error (he : Ends e) {turn : SendTurn t.sendType}
    {later : List (WaitResult × SendTurn t.sendType)} {msg : GridMsg} :
    sockSend t.sendType dontwait heap turn later msg = .error e ↔
      e = .header ∧ Reaches turn ∧ (msg.view heap).sphdr ≠ [] := by
  unfold sockSend
  split
  · rename_i hnosend
    refine iff_of_false (by simp) ?_
    rintro ⟨-, ⟨-, hasserts⟩, -⟩
    cases ht : t.asserting with
    | true => exact absurd (hnosend.symm.trans (asserting_nosend ht)) (by simp)
    | false => exact not_asserts ht _ hasserts
  · exact sockSendLoop_eq_error he later

/-- The control data of a call that gets as far as reading them. -/
def ControlOf (hold : Option SendErrno) (msghdr : Option Msghdr) (heap : ChunkHeap)
    (data : Control) : Prop :=
  ∃ hdr src body hdrs, checkArgs hold msghdr = .ok (hdr, src) ∧
    initBody heap src = .ok body ∧ initHdrs body.1 hdr.control = .ok hdrs ∧ hdrs.2.2 = data

/-- With enough steps through the control data, the call is not ended by them: the assertion
holds, the walk over the properties ends, and no byte behind them is read. -/
def Survives (t : SocketType) (hold : Option SendErrno) (msghdr : Option Msghdr)
    (dontwait : Bool) (turn : SendTurn t.sendType)
    (later : List (WaitResult × SendTurn t.sendType)) (heap : ChunkHeap) : Prop :=
  ∃ fuel, ∀ e, Ends e → sendmsg t.sendType hold msghdr dontwait fuel turn later heap ≠ .error e

theorem finish_ne_error {src : MsgBody} {s : SockSend} (he : Ends e) :
    finish heap src s ≠ .error e := by
  unfold finish
  split
  · cases hundo : liftAbort (undo heap src s.msg) with
    | error e' =>
        rw [error_bind]
        intro h
        obtain rfl := Except.error.inj h
        exact liftAbort_ne_error he hundo
    | ok heap' => simp
  · simp
  · simp

theorem controlOf_iff {hold : Option SendErrno} {msghdr : Option Msghdr} {hdr : Msghdr}
    {src : MsgBody} {body : ChunkHeap × Chunkref} {hdrs : ChunkHeap × Chunkref × Control}
    (hargs : checkArgs hold msghdr = .ok (hdr, src)) (hbody : initBody heap src = .ok body)
    (hhdrs : initHdrs body.1 hdr.control = .ok hdrs) {data : Control} :
    ControlOf hold msghdr heap data ↔ data = hdrs.2.2 := by
  refine ⟨?_, fun h => ⟨hdr, src, body, hdrs, hargs, hbody, hhdrs, h.symm⟩⟩
  rintro ⟨hdr', src', body', hdrs', hargs', hbody', hhdrs', rfl⟩
  obtain ⟨rfl, rfl⟩ := Prod.mk.inj (Except.ok.inj (hargs.symm.trans hargs'))
  obtain rfl := Except.ok.inj (hbody.symm.trans hbody')
  obtain rfl := Except.ok.inj (hhdrs.symm.trans hhdrs')
  rfl

/-- A call that does not read its control data is not ended by them. -/
theorem sendmsg_unread {hold : Option SendErrno} {msghdr : Option Msghdr} {fuel : Nat}
    {turn : SendTurn t.sendType} {later : List (WaitResult × SendTurn t.sendType)}
    (he : Ends e) (h : ∀ data, ¬ControlOf hold msghdr heap data) :
    sendmsg t.sendType hold msghdr dontwait fuel turn later heap ≠ .error e := by
  unfold sendmsg
  cases hargs : checkArgs hold msghdr with
  | error e' => simp
  | ok r =>
      obtain ⟨hdr, src⟩ := r
      obtain ⟨a, habort⟩ : ∃ a, assemble fuel heap hdr src = .error (.other a) := by
        unfold assemble
        cases hbody : initBody heap src with
        | error a => exact ⟨a, rfl⟩
        | ok body =>
            cases hhdrs : initHdrs body.1 hdr.control with
            | error a =>
                refine ⟨a, ?_⟩
                rw [show liftAbort (.ok body) = .ok body from rfl, ok_bind, hhdrs]
                rfl
            | ok hdrs => exact absurd ((controlOf_iff hargs hbody hhdrs).mpr rfl) (h _)
      simp only [habort, error_bind]
      intro hcall
      exact he a (Except.error.inj hcall).symm

/-- How a call ends because of its control data. -/
theorem sendmsg_eq_error {hold : Option SendErrno} {msghdr : Option Msghdr} {fuel : Nat}
    {turn : SendTurn t.sendType} {later : List (WaitResult × SendTurn t.sendType)}
    (he : Ends e) {data : Control} (hdata : ControlOf hold msghdr heap data) :
    sendmsg t.sendType hold msghdr dontwait fuel turn later heap = .error e ↔
      data.spHdr fuel = .error e ∨ e = .header ∧ Reaches turn ∧
        ∃ found, data.spHdr fuel = .ok found ∧ found.getD [] ≠ [] := by
  obtain ⟨hdr, src, body, hdrs, hargs, hbody, hhdrs, rfl⟩ := hdata
  unfold sendmsg
  rw [hargs]
  rcases assemble_eq hbody hhdrs fuel with ⟨found, r, hfound, hmsg, hview⟩ |
    ⟨e', herr, hmsg⟩
  · simp only [hmsg, ok_bind, hfound]
    have hsend : sockSend t.sendType dontwait r.1 turn later r.2 = .error e ↔
        e = .header ∧ Reaches turn ∧ (r.2.view r.1).sphdr ≠ [] := sockSend_eq_error he
    rw [hview] at hsend
    cases hcall : sockSend t.sendType dontwait r.1 turn later r.2 with
    | error e'' =>
        rw [hcall, Except.error.injEq] at hsend
        rw [error_bind, Except.error.injEq, hsend]
        simp
    | ok s =>
        rw [hcall] at hsend
        rw [ok_bind]
        refine iff_of_false (finish_ne_error he) ?_
        rintro (h | ⟨h1, h2, found', hfound', hne⟩)
        · exact absurd h (by simp)
        · obtain rfl := Except.ok.inj hfound'
          exact absurd (hsend.mpr ⟨h1, h2, hne⟩) (by simp)
  · simp only [hmsg, error_bind, herr]
    simp

/-- On a socket of any type, in whatever states the call meets it, the control data do not
end a call of `grid_sendmsg` if and only if they can be read and, where they carry a header
that is not empty, the call does not come to an assertion that there is none. -/
theorem control_data_harmless (t : SocketType) (hold : Option SendErrno)
    (msghdr : Option Msghdr) (dontwait : Bool) (turn : SendTurn t.sendType)
    (later : List (WaitResult × SendTurn t.sendType)) (heap : ChunkHeap) :
    Survives t hold msghdr dontwait turn later heap ↔
      ∀ data, ControlOf hold msghdr heap data →
        data.Readable ∧ (data.HasHeader → ¬Reaches turn) := by
  constructor
  · rintro ⟨fuel, hfuel⟩ data hdata
    have hnot : ∀ e, Ends e → ¬(data.spHdr fuel = .error e ∨ e = .header ∧ Reaches turn ∧
        ∃ found, data.spHdr fuel = .ok found ∧ found.getD [] ≠ []) := by
      intro e he hcases
      exact hfuel e he ((sendmsg_eq_error he hdata).mpr hcases)
    rcases data.spHdr_cases fuel with ⟨found, hok, hread, hhas⟩ | ⟨hout, -⟩ | hend
    · refine ⟨hread, fun hhdr hreach => ?_⟩
      exact hnot .header (by simp [Ends]) (Or.inr ⟨rfl, hreach, found, hok, hhas.mp hhdr⟩)
    · exact absurd (Or.inl hout) (hnot .outOfBounds (by simp [Ends]))
    · exact absurd (Or.inl hend) (hnot .endless (by simp [Ends]))
  · intro hall
    by_cases hread : ∃ data, ControlOf hold msghdr heap data
    · obtain ⟨data, hdata⟩ := hread
      obtain ⟨hreadable, hhdr⟩ := hall data hdata
      obtain ⟨fuel, found, hok⟩ := hreadable.spHdr
      refine ⟨fuel, fun e he hcall => ?_⟩
      rcases (sendmsg_eq_error he hdata).mp hcall with herr | ⟨-, hreach, found', hok', hne⟩
      · exact absurd (hok.symm.trans herr) (by simp)
      · rcases data.spHdr_cases fuel with ⟨found'', hok'', -, hhas⟩ | ⟨hout, -⟩ | hend
        · obtain rfl := Except.ok.inj (hok'.symm.trans hok'')
          exact hhdr (hhas.mpr hne) hreach
        · exact absurd (hok.symm.trans hout) (by simp)
        · exact absurd (hok.symm.trans hend) (by simp)
    · exact ⟨0, fun e he => sendmsg_unread he fun data hdata => hread ⟨data, hdata⟩⟩

/-- Control data with a header of four bytes. -/
def fourByteHeader : Control :=
  [28, 0, 0, 0, 0, 0, 0, 0, 1, 0, 0, 0, 1, 0, 0, 0, 4, 0, 0, 0, 0, 0, 0, 0, 1, 2, 3, 4, 0, 0, 0, 0]

/-- They end a send on a REQ socket. -/
theorem not_control_data_harmless : ¬∀ (t : SocketType) (hold : Option SendErrno)
    (msghdr : Option Msghdr) (dontwait : Bool) (turn : SendTurn t.sendType)
    (later : List (WaitResult × SendTurn t.sendType)) (heap : ChunkHeap),
    Survives t hold msghdr dontwait turn later heap := by
  intro hall
  obtain ⟨fuel, hfuel⟩ := hall .req none
    (some { iov := some [.buffer [97]], control := .buffer fourByteHeader }) true
    ⟨.active, Req.init 0⟩ [] {}
  cases fuel with
  | zero => exact hfuel .endless (by simp [Ends]) rfl
  | succ n => exact hfuel .header (by simp [Ends]) rfl

end GridMq.Protocols
