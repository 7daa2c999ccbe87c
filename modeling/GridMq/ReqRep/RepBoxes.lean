import GridMq.Library.Journal
import GridMq.Library.Machine
import GridMq.Protocols.Boxes
import GridMq.ReqRep.RepRuns

set_option autoImplicit false

/-!
# Where the messages of a REP socket come from

What waits on a pipe has arrived there, and what was given to a pipe answers a request that the
user received from it.
-/

namespace GridMq.ReqRep

open GridMq.Core GridMq.Protocols GridMq.Library

variable {In Out : Nat → List UInt8 → Prop}

namespace Xrep

/-- The messages that wait on the pipes and those that were given to them. -/
def Boxed (In Out : Nat → List UInt8 → Prop) (x : Xrep) : Prop :=
  ∀ p data, x.pipes p = some data → Protocols.Boxed (In p) (Out p) data.pipe

variable {x x' : Xrep} {p : Nat}

theorem Boxed.congr (h : x.Boxed In Out) (hpipes : x'.pipes = x.pipes) : x'.Boxed In Out :=
  fun q data hq => h q data (hpipes ▸ hq)

theorem Boxed.update {data : XrepData} (h : x.Boxed In Out)
    (hpipe : Protocols.Boxed (In p) (Out p) data.pipe) :
    (x.setData p (some data)).Boxed In Out := by
  intro q data' hq
  rw [setData_pipes] at hq
  split at hq
  · rename_i hqp
    obtain rfl := Option.some.inj hq
    exact hqp ▸ hpipe
  · exact h q data' hq

theorem Boxed.add {sndprio rcvprio : Nat} (h : x.Boxed In Out)
    (hcall : x.add p sndprio rcvprio = .ok x') : x'.Boxed In Out := by
  obtain ⟨_, -, hcall⟩ := bind_eq_ok_iff.mp hcall
  obtain ⟨outpipes, -, hcall⟩ := bind_eq_ok_iff.mp hcall
  obtain rfl := Except.ok.inj hcall
  have hkeys : ({ x with outpipes := outpipes, nextKey := (x.nextKey + 1) % 2 ^ 32 } : Xrep).Boxed
      In Out := h.congr rfl
  exact hkeys.update (.start _ _ sndprio rcvprio)

theorem Boxed.rm (h : x.Boxed In Out) (hcall : x.rm p = .ok x') : x'.Boxed In Out := by
  obtain ⟨data, -, hcall⟩ := bind_eq_ok_iff.mp hcall
  obtain rfl := Except.ok.inj hcall
  intro q data' hq
  rw [setData_pipes] at hq
  split at hq
  · exact absurd hq (by simp)
  · exact h q data' hq

theorem Boxed.xrepIn (h : x.Boxed In Out) (hcall : x.xrepIn p = .ok x') : x'.Boxed In Out := by
  obtain ⟨data, -, hcall⟩ := bind_eq_ok_iff.mp hcall
  obtain ⟨inpipes, -, hcall⟩ := bind_eq_ok_iff.mp hcall
  obtain rfl := Except.ok.inj hcall
  exact h.congr rfl

theorem Boxed.xrepOut (h : x.Boxed In Out) (hcall : x.xrepOut p = .ok x') : x'.Boxed In Out := by
  obtain ⟨data, hget, hcall⟩ := bind_eq_ok_iff.mp hcall
  obtain rfl := Except.ok.inj hcall
  have hdata : Protocols.Boxed (In p) (Out p) ({ data with out := true } : XrepData).pipe :=
    h p data (getData_eq_ok hget)
  exact h.update hdata

/-- A message that is received was waiting on its pipe. -/
theorem Boxed.fqRecv {r : Xrep × Option (Nat × List UInt8)} (h : x.Boxed In Out)
    (hcall : x.fqRecv = .ok r) :
    r.1.Boxed In Out ∧ ∀ q wire, r.2 = some (q, wire) → In q wire := by
  obtain ⟨o, -, hcall⟩ := bind_eq_ok_iff.mp hcall
  cases o with
  | none =>
      obtain rfl := Except.ok.inj hcall
      exact ⟨h, fun q wire hq => absurd hq (by simp)⟩
  | some d =>
      obtain ⟨data, hget, hcall⟩ := bind_eq_ok_iff.mp hcall
      obtain ⟨received, hrecv, hcall⟩ := bind_eq_ok_iff.mp hcall
      obtain ⟨inpipes, -, hcall⟩ := bind_eq_ok_iff.mp hcall
      obtain rfl := Except.ok.inj hcall
      obtain ⟨hpipe, hin⟩ := (h d.pipe data (getData_eq_ok hget)).recv hrecv
      have hdata : Protocols.Boxed (In d.pipe) (Out d.pipe)
          ({ data with pipe := received.1 } : XrepData).pipe := hpipe
      refine ⟨(h.update hdata).congr rfl, ?_⟩
      intro q wire hq
      obtain ⟨rfl, rfl⟩ := Prod.mk.inj (Option.some.inj hq)
      exact hin

theorem Boxed.recv {r : Xrep × Option (Nat × List UInt8 × Msg)} (h : x.Boxed In Out)
    (hcall : x.recv = .ok r) :
    r.1.Boxed In Out ∧ ∀ q wire msg, r.2 = some (q, wire, msg) → In q wire := by
  obtain ⟨⟨x₁, o⟩, hfq, hcall⟩ := bind_eq_ok_iff.mp hcall
  obtain ⟨hboxed, hin⟩ := h.fqRecv hfq
  cases o with
  | none =>
      obtain rfl := Except.ok.inj hcall
      exact ⟨hboxed, fun q wire msg hq => absurd hq (by simp)⟩
  | some e =>
      obtain ⟨q, wire⟩ := e
      simp only at hcall
      split at hcall
      · obtain rfl := Except.ok.inj hcall
        exact ⟨hboxed, fun q wire msg hq => absurd hq (by simp)⟩
      · obtain ⟨data, -, hcall⟩ := bind_eq_ok_iff.mp hcall
        obtain rfl := Except.ok.inj hcall
        refine ⟨hboxed, ?_⟩
        intro q' wire' msg hq
        obtain ⟨rfl, hrest⟩ := Prod.mk.inj (Option.some.inj hq)
        obtain ⟨rfl, -⟩ := Prod.mk.inj hrest
        exact hin q wire rfl

theorem Boxed.receivedMsg {wire : List UInt8} {r : Xrep × Bool} (h : x.Boxed In Out)
    (hwire : In p wire) (hcall : x.receivedMsg p wire = .ok r) : r.1.Boxed In Out := by
  obtain ⟨data, hget, hcall⟩ := bind_eq_ok_iff.mp hcall
  obtain ⟨arrived, harrive, hcall⟩ := bind_eq_ok_iff.mp hcall
  obtain rfl := Except.ok.inj hcall
  have hdata : Protocols.Boxed (In p) (Out p) ({ data with pipe := arrived.1 } : XrepData).pipe :=
    (h p data (getData_eq_ok hget)).arrive hwire harrive
  exact h.update hdata

theorem Boxed.sentMsg {r : Xrep × Bool} (h : x.Boxed In Out) (hcall : x.sentMsg p = .ok r) :
    r.1.Boxed In Out := by
  obtain ⟨data, hget, hcall⟩ := bind_eq_ok_iff.mp hcall
  obtain ⟨sent, hsent, hcall⟩ := bind_eq_ok_iff.mp hcall
  obtain rfl := Except.ok.inj hcall
  have hdata : Protocols.Boxed (In p) (Out p) ({ data with pipe := sent.1 } : XrepData).pipe :=
    (h p data (getData_eq_ok hget)).sent hsent
  exact h.update hdata

/-- The pipe that a key leads to was given that key. -/
theorem Keyed.key_of_get {first adds key q : Nat} (h : x.Keyed first adds)
    (hget : x.outpipes.get key = some q) : q < adds ∧ key = keyOf first q := by
  obtain ⟨data, hdata, hkey⟩ := h.listed key q (h.hash.get_eq_some_iff.mp hget)
  obtain ⟨hlt, hdatakey, -⟩ := h.attached q data hdata
  exact ⟨hlt, hkey.symm.trans hdatakey⟩

/-- A message that is sent goes, without the key at the top of its header, to the pipe with that
key. -/
theorem Boxed.send {msg : Msg} (h : x.Boxed In Out)
    (hmsg : ∀ q, x.outpipes.get (getl msg.sphdr) = some q → 4 ≤ msg.sphdr.length →
      Out q (Msg.wire { msg with sphdr := msg.sphdr.drop 4 }))
    (hcall : x.send msg = .ok x') : x'.Boxed In Out := by
  unfold Xrep.send at hcall
  split at hcall
  · obtain rfl := Except.ok.inj hcall
    exact h
  · rename_i hlong
    simp only at hcall
    split at hcall
    · obtain rfl := Except.ok.inj hcall
      exact h
    · rename_i q hq
      obtain ⟨data, hget, hcall⟩ := bind_eq_ok_iff.mp hcall
      split at hcall
      · obtain rfl := Except.ok.inj hcall
        exact h
      · obtain ⟨r, hsend, hret⟩ := bind_eq_ok_iff.mp hcall
        obtain rfl := Except.ok.inj hret
        have hpipe := (h q data (getData_eq_ok hget)).send (hmsg q hq (by omega)) hsend
        have hdata : Protocols.Boxed (In q) (Out q) ({ data with
            pipe := r.1, out := if r.2 then false else data.out } : XrepData).pipe := hpipe
        exact h.update hdata

end Xrep

/-! ## The socket as it is seen from outside -/

namespace Rep

/-- What was given to a pipe so far. -/
def outbox (s : Rep) (p : Nat) : List (List UInt8) :=
  match s.xrep.pipes p with
  | none => []
  | some data => data.pipe.session.outbox

/-- What a step has given to the pipes. -/
def gave (s s' : Rep) : List (Nat × List UInt8) :=
  newlyGiven (List.range s'.adds) s.outbox s'.outbox

/-- What a step answers, and what it gave to the pipes. -/
abbrev Answer := Result × List (Nat × List UInt8)

/-- A step as it is seen from outside. -/
abbrev Seen := Label × Answer

/-- A REP socket from its creation on.  `mine` says which of its pipes it may be given, by the
number of pipes added before. -/
def machine (key : Nat) (mine : Nat → Bool) : Machine Rep Label Answer Abort where
  init := .init key
  Enabled s l := s.Enabled l ∧ ∀ sndprio rcvprio, l = .add sndprio rcvprio → mine s.adds = true
  next s l := do
    let r ← s.next l
    return (r.1, r.2, s.gave r.1)

/-- A check for what the machine asks for. -/
def ready (mine : Nat → Bool) (s : Rep) : Label → Bool
  | .add _ _ => mine s.adds
  | .pipeOut p => (s.xrep.pipes p).any fun data => data.pipe.outstate == .idle
  | _ => true

theorem enabled_of_ready {key : Nat} {mine : Nat → Bool} {s : Rep} {l : Label}
    (h : s.ready mine l = true) : (machine key mine).Enabled s l := by
  cases l with
  | add sndprio rcvprio => exact ⟨trivial, fun _ _ _ => h⟩
  | pipeOut p =>
      refine ⟨?_, fun _ _ hl => absurd hl (by simp)⟩
      obtain ⟨data, hdata, hidle⟩ := (Option.any_eq_true _ _).mp h
      exact ⟨data, hdata, by simpa using hidle⟩
  | _ => exact ⟨trivial, fun _ _ hl => absurd hl (by simp)⟩

/-- What arrives in a step. -/
def arrival : Seen → Option (Nat × List UInt8)
  | (.received p wire, _) => some (p, wire)
  | _ => none

/-- What is sent in a step. -/
def sends (l : Seen) : List (Nat × List UInt8) := l.2.2

/-- The last request that the user received came in on a pipe as `wire`, and is not answered. -/
def Asks (labels : List Seen) (p : Nat) (wire : List UInt8) (req : Msg) : Prop :=
  ∃ before mid gave, labels =
      before ++ (.recv, .request { req with sphdr := [] }, gave) :: mid ∧
    (∀ l ∈ mid, l.1 ≠ .recv ∧ l.2.1 ≠ .ok) ∧ (p, wire) ∈ before.filterMap arrival ∧
    xrepSplit wire = some req

/-- The user received a request from the pipe, and this is the answer to it. -/
def Answers (labels : List Seen) (p : Nat) (wire : List UInt8) : Prop :=
  ∃ before after asked req body gave,
    labels = before ++ (.send { body := body }, .ok, gave) :: after ∧
      Asks before p asked req ∧ wire = req.sphdr ++ body

theorem Asks.concat {labels : List Seen} {p : Nat} {wire : List UInt8} {req : Msg}
    (h : Asks labels p wire req) {l : Seen} (hl : l.1 ≠ .recv ∧ l.2.1 ≠ .ok) :
    Asks (labels ++ [l]) p wire req := by
  obtain ⟨before, mid, gave, rfl, hmid, harrival, hsplit⟩ := h
  refine ⟨before, mid ++ [l], gave, ?_, ?_, harrival, hsplit⟩
  · rw [List.append_assoc, List.cons_append]
  · intro l' hl'
    rcases List.mem_append.mp hl' with hl' | hl'
    · exact hmid l' hl'
    · obtain rfl := List.mem_singleton.mp hl'
      exact hl

theorem Answers.concat {labels : List Seen} {p : Nat} {wire : List UInt8}
    (h : Answers labels p wire) (l : Seen) : Answers (labels ++ [l]) p wire := by
  obtain ⟨before, after, asked, req, body, gave, rfl, hasks, hwire⟩ := h
  refine ⟨before, after ++ [l], asked, req, body, gave, ?_, hasks, hwire⟩
  rw [List.append_assoc, List.cons_append]

/-- What waits on a pipe has arrived there, what was given to a pipe is an answer, and the
request that is processed was received. -/
structure Sourced (labels : List Seen) (s : Rep) : Prop where
  boxed : s.xrep.Boxed (fun p wire => (p, wire) ∈ labels.filterMap arrival) (Answers labels)
  asked : s.inprogress = true → ∃ p wire req, s.asked = some (p, wire) ∧ Asks labels p wire req

variable {labels : List Seen} {s s' : Rep}

/-- What was true of the messages stays true. -/
theorem Sourced.boxed_concat (h : Sourced labels s) (l : Seen) :
    s.xrep.Boxed (fun p wire => (p, wire) ∈ (labels ++ [l]).filterMap arrival)
      (Answers (labels ++ [l])) := by
  intro p data hp
  refine (h.boxed p data hp).mono ?_ fun wire hw => hw.concat l
  intro wire hw
  rw [List.filterMap_append]
  exact List.mem_append_left _ hw

/-- A step of the pipes. -/
theorem Sourced.raw {l : Label} {x' : Xrep} {adds : Nat} (h : Sourced labels s)
    (gave : List (Nat × List UInt8)) (hl : l ≠ .recv)
    (hx : x'.Boxed (fun p wire =>
        (p, wire) ∈ (labels ++ [(l, Result.none, gave)]).filterMap arrival)
      (Answers (labels ++ [(l, Result.none, gave)]))) :
    Sourced (labels ++ [(l, Result.none, gave)]) { s with xrep := x', adds := adds } where
  boxed := hx
  asked hprog := by
    obtain ⟨p, wire, req, hasked, hasks⟩ := h.asked hprog
    exact ⟨p, wire, req, hasked, hasks.concat ⟨hl, by simp⟩⟩

theorem Sourced.send {first : Nat} {msg : Msg} {r : Result} (h : Sourced labels s)
    (hinv : Inv first s) (hfew : s.adds ≤ 2 ^ 31) (gave : List (Nat × List UInt8))
    (hcall : s.send msg = .ok (s', r)) : Sourced (labels ++ [(.send msg, r, gave)]) s' := by
  cases hprog : s.inprogress with
  | false =>
      have hrefused : s.send msg = .ok (s, .efsm) := by simp [Rep.send, hprog]
      obtain ⟨rfl, rfl⟩ := Prod.mk.inj (Except.ok.inj (hrefused.symm.trans hcall))
      exact ⟨h.boxed_concat _, fun hp => absurd (hp.symm.trans hprog) (by simp)⟩
  | true =>
      have hhdr : msg.sphdr = [] := by
        by_contra hhdr
        simp [Rep.send, hprog, gridAssert, hhdr] at hcall
      obtain ⟨p, wire, req, hasked, hsplit, hback, hlt, -⟩ := hinv.asked hprog
      unfold Rep.send at hcall
      simp only [hprog, hhdr, gridAssert_pos, ok_bind, Bool.not_true, Bool.false_eq_true,
        if_false, hback] at hcall
      obtain ⟨x', hx, hret⟩ := bind_eq_ok_iff.mp hcall
      obtain ⟨rfl, rfl⟩ := Prod.mk.inj (Except.ok.inj hret)
      refine ⟨(h.boxed_concat _).send ?_ hx, fun hp => absurd hp (by simp)⟩
      obtain ⟨p', wire', req', hasked', hasks⟩ := h.asked hprog
      obtain ⟨rfl, rfl⟩ := Prod.mk.inj (Option.some.inj (hasked.symm.trans hasked'))
      obtain ⟨before, mid, g, hlabels, hmid, harrival, hsplit'⟩ := hasks
      obtain rfl := Option.some.inj (hsplit.symm.trans hsplit')
      intro q hq _
      have hkeylt := Xrep.keyOf_lt first p
      rw [getl_putl (by omega)] at hq
      obtain ⟨hqlt, hkey⟩ := hinv.keyed.key_of_get hq
      obtain rfl : p = q := by
        unfold Xrep.keyOf at hkey
        omega
      refine ⟨labels, [], wire, req, msg.body, gave, by rw [← hhdr],
        ⟨before, mid, g, hlabels, hmid, harrival, hsplit⟩, ?_⟩
      simp [Msg.wire, List.drop_left' (length_putl _)]

theorem Sourced.recv {r : Result} (h : Sourced labels s) (gave : List (Nat × List UInt8))
    (hcall : s.recv = .ok (s', r)) : Sourced (labels ++ [(.recv, r, gave)]) s' := by
  have hcancel : (if s.inprogress then
      ({ s with backtrace := [], inprogress := false } : Rep) else s).xrep = s.xrep ∧
      (if s.inprogress then
        ({ s with backtrace := [], inprogress := false } : Rep) else s).inprogress = false := by
    split
    · exact ⟨rfl, rfl⟩
    · rename_i hprog
      exact ⟨rfl, by simpa using hprog⟩
  unfold Rep.recv at hcall
  obtain ⟨⟨x', o⟩, hx, hret⟩ := bind_eq_ok_iff.mp hcall
  rw [hcancel.1] at hx
  obtain ⟨hboxed, -⟩ := (h.boxed_concat (.recv, r, gave)).recv hx
  obtain ⟨-, hin⟩ := h.boxed.recv hx
  cases o with
  | none =>
      obtain ⟨rfl, -⟩ := Prod.mk.inj (Except.ok.inj hret)
      exact ⟨hboxed, fun hp => absurd (hp.symm.trans hcancel.2) (by simp)⟩
  | some pwm =>
      obtain ⟨p, wire, msg⟩ := pwm
      obtain ⟨rfl, rfl⟩ := Prod.mk.inj (Except.ok.inj hret)
      obtain ⟨-, data, req, -, hsplit, rfl⟩ := Xrep.recv_some hx
      refine ⟨hboxed, fun _ => ⟨p, wire, req, rfl, labels, [], gave, rfl, by simp, ?_, hsplit⟩⟩
      exact hin p wire _ rfl

theorem Sourced.step {first : Nat} {l : Label} {r : Result} (h : Sourced labels s)
    (hinv : Inv first s) (hfew : s.adds ≤ 2 ^ 31) (gave : List (Nat × List UInt8))
    (hcall : s.next l = .ok (s', r)) : Sourced (labels ++ [(l, r, gave)]) s' := by
  have hboxed := h.boxed_concat (l, r, gave)
  cases l with
  | add sndprio rcvprio =>
      obtain ⟨x', hx, hret⟩ := bind_eq_ok_iff.mp hcall
      obtain ⟨rfl, rfl⟩ := Prod.mk.inj (Except.ok.inj hret)
      exact h.raw gave (by simp) (hboxed.add hx)
  | rm p =>
      obtain ⟨x', hx, hret⟩ := bind_eq_ok_iff.mp hcall
      obtain ⟨rfl, rfl⟩ := Prod.mk.inj (Except.ok.inj hret)
      exact h.raw gave (by simp) (hboxed.rm hx)
  | pipeIn p =>
      obtain ⟨x', hx, hret⟩ := bind_eq_ok_iff.mp hcall
      obtain ⟨rfl, rfl⟩ := Prod.mk.inj (Except.ok.inj hret)
      exact h.raw gave (by simp) (hboxed.xrepIn hx)
  | pipeOut p =>
      obtain ⟨x', hx, hret⟩ := bind_eq_ok_iff.mp hcall
      obtain ⟨rfl, rfl⟩ := Prod.mk.inj (Except.ok.inj hret)
      exact h.raw gave (by simp) (hboxed.xrepOut hx)
  | received p wire =>
      obtain ⟨x', hx, hret⟩ := bind_eq_ok_iff.mp hcall
      obtain ⟨rfl, rfl⟩ := Prod.mk.inj (Except.ok.inj hret)
      refine h.raw gave (by simp) (hboxed.receivedMsg ?_ hx)
      exact List.filterMap_append ▸ List.mem_append_right _ List.mem_cons_self
  | sent p =>
      obtain ⟨x', hx, hret⟩ := bind_eq_ok_iff.mp hcall
      obtain ⟨rfl, rfl⟩ := Prod.mk.inj (Except.ok.inj hret)
      exact h.raw gave (by simp) (hboxed.sentMsg hx)
  | send msg => exact h.send hinv hfew gave hcall
  | recv => exact h.recv gave hcall

end Rep

end GridMq.ReqRep
