import GridMq.Survey.Respondent

set_option autoImplicit false

/-!
# Runs of a REP or RESPONDENT socket

A reply goes to the pipe the last request came in on, or nowhere.  Keys come back
after `2 ^ 31` pipes, so this holds as long as fewer pipes than that were added
since the asking pipe was.
-/

namespace GridMq.ReqRep

open GridMq.Core GridMq.Protocols GridMq.Library

/-! ## Pipes and their keys -/

namespace Xrep

/-- The key of the pipe with a number, if the first pipe was given `first`. -/
def keyOf (first p : Nat) : Nat := (first + p) % 2 ^ 31

theorem keyOf_lt (first p : Nat) : keyOf first p < 2 ^ 31 := Nat.mod_lt _ (by decide)

/-- Keys come back only after `2 ^ 31` pipes. -/
theorem keyOf_inj {first p q : Nat} (h : keyOf first p = keyOf first q) (hle : p ≤ q)
    (hlt : q < p + 2 ^ 31) : p = q := by
  unfold keyOf at h
  omega

/-- The table of keys lists the attached pipes, which were given their keys in order. -/
structure Keyed (first adds : Nat) (x : Xrep) : Prop where
  next : x.nextKey = (first + adds) % 2 ^ 32
  hash : x.outpipes.WF
  attached : ∀ p data, x.pipes p = some data → p < adds ∧ data.key = keyOf first p ∧
    x.outpipes.Has data.key p ∧ (data.out = true → data.pipe.outstate = .idle)
  listed : ∀ key p, x.outpipes.Has key p → ∃ data, x.pipes p = some data ∧ data.key = key

variable {first adds : Nat} {x x' : Xrep}

theorem Keyed.congr (h : Keyed first adds x) (hnext : x'.nextKey = x.nextKey)
    (hash : x'.outpipes = x.outpipes) (hpipes : x'.pipes = x.pipes) : Keyed first adds x' := by
  refine ⟨hnext ▸ h.next, hash ▸ h.hash, ?_, ?_⟩
  · rw [hash, hpipes]
    exact h.attached
  · rw [hash, hpipes]
    exact h.listed

/-- A pipe changes, its key does not. -/
theorem Keyed.update {p : Nat} {data data' : XrepData} (h : Keyed first adds x)
    (hp : x.pipes p = some data) (hkey : data'.key = data.key)
    (hout : data'.out = true → data'.pipe.outstate = .idle) :
    Keyed first adds (x.setData p (some data')) where
  next := h.next
  hash := h.hash
  attached q d hq := by
    rw [setData_pipes] at hq
    split at hq
    · rename_i hqp
      obtain rfl := Option.some.inj hq
      obtain ⟨h1, h2, h3, -⟩ := h.attached p data hp
      rw [hqp, hkey]
      exact ⟨h1, h2, h3, hout⟩
    · exact h.attached q d hq
  listed key q hq := by
    obtain ⟨d, hd, hk⟩ := h.listed key q hq
    rw [setData_pipes]
    split
    · rename_i hqp
      rw [hqp, hp] at hd
      obtain rfl := Option.some.inj hd
      exact ⟨data', rfl, hkey.trans hk⟩
    · exact ⟨d, hd, hk⟩

/-- No pipe is attached by the step. -/
def AttachesNone (x x' : Xrep) : Prop := ∀ q, x.pipes q = none → x'.pipes q = none

theorem AttachesNone.refl (x : Xrep) : AttachesNone x x := fun _ h => h

theorem attachesNone_setData {p : Nat} {data : XrepData} (hp : x.pipes p = some data)
    (data' : Option XrepData) : AttachesNone x (x.setData p data') := by
  intro q hq
  rw [setData_pipes, if_neg]
  · exact hq
  · rintro rfl
    rw [hp] at hq
    exact absurd hq (by simp)

theorem keyed_init (key : Nat) : Keyed (key % 2 ^ 32) 0 (.init key) where
  next := by
    simp [init]
  hash := Hash.wf_empty
  attached p data h := by simp [init] at h
  listed k p h := absurd h (Hash.not_has_empty k p)

theorem Keyed.nextKey_and (h : Keyed first adds x) :
    x.nextKey &&& 0x7fffffff = keyOf first adds := by
  rw [h.next, show (0x7fffffff : Nat) = 2 ^ 31 - 1 from rfl, Nat.and_two_pow_sub_one_eq_mod]
  unfold keyOf
  omega

/-- A pipe is added under the next number. -/
theorem Keyed.add {sndprio rcvprio : Nat} (h : Keyed first adds x)
    (hadd : x.add adds sndprio rcvprio = .ok x') :
    Keyed first (adds + 1) x' ∧ ∀ q, q ≠ adds → x'.pipes q = x.pipes q := by
  obtain ⟨_, -, hadd⟩ := bind_eq_ok_iff.mp hadd
  obtain ⟨outpipes, hins, hret⟩ := bind_eq_ok_iff.mp hadd
  obtain ⟨hfree, hwf, hhas⟩ := Hash.insert_spec h.hash hins
  have hkey := h.nextKey_and
  rw [hkey] at hfree hhas
  obtain rfl := Except.ok.inj hret
  refine ⟨⟨?_, hwf, ?_, ?_⟩, fun q hq => by rw [setData_pipes, if_neg hq]⟩
  · change (x.nextKey + 1) % 2 ^ 32 = _
    rw [h.next]
    omega
  · intro p data hp
    rw [setData_pipes] at hp
    split at hp
    · rename_i hpa
      obtain rfl := Option.some.inj hp
      subst hpa
      refine ⟨Nat.lt_succ_self _, hkey, ?_, by simp⟩
      change outpipes.Has (x.nextKey &&& 0x7fffffff) _
      rw [hkey]
      exact (hhas _ _).mpr (Or.inr ⟨rfl, rfl⟩)
    · obtain ⟨h1, h2, h3, h4⟩ := h.attached p data hp
      exact ⟨by omega, h2, (hhas _ _).mpr (Or.inl h3), h4⟩
  · intro key p hp
    rcases (hhas key p).mp hp with hp | ⟨rfl, rfl⟩
    · obtain ⟨data, hd, hk⟩ := h.listed key p hp
      have hlt := (h.attached p data hd).1
      refine ⟨data, ?_, hk⟩
      rw [setData_pipes, if_neg (by omega)]
      exact hd
    · refine ⟨_, by rw [setData_pipes, if_pos rfl], hkey⟩

/-- A pipe whose key is not in use can be added. -/
theorem Keyed.add_ok (h : Keyed first adds x)
    (hfree : ∀ p, x.pipes p ≠ none → keyOf first p ≠ keyOf first adds) (sndprio : Nat)
    {rcvprio : Nat} (hprio : 1 ≤ rcvprio ∧ rcvprio ≤ 16) :
    ∃ x', x.add adds sndprio rcvprio = .ok x' ∧ x'.inpipes = x.inpipes ∧
      x'.pipes = (x.setData adds (some {
        key := keyOf first adds
        pipe := .start { sndprio := sndprio, rcvprio := rcvprio, session := {} } })).pipes := by
  have hkey := h.nextKey_and
  obtain ⟨outpipes, hins⟩ := @Hash.insert_ok _ x.outpipes (keyOf first adds) adds
    fun p hhas => by
      obtain ⟨data, hp, hdata⟩ := h.listed _ p hhas
      exact hfree p (by simp [hp]) ((h.attached p data hp).2.1.symm.trans hdata)
  unfold Xrep.add
  simp only [gridAssert_pos hprio, ok_bind, hkey, hins]
  exact ⟨_, rfl, rfl, rfl⟩

/-- Attached pipes have different keys. -/
theorem Keyed.key_inj (h : Keyed first adds x) {p q : Nat} {d e : XrepData}
    (hp : x.pipes p = some d) (hq : x.pipes q = some e) (hkey : d.key = e.key) : p = q :=
  h.hash.unique (h.attached p d hp).2.2.1 (hkey ▸ (h.attached q e hq).2.2.1)

/-- A pipe is removed. -/
theorem Keyed.rm {p : Nat} (h : Keyed first adds x) (hrm : x.rm p = .ok x') :
    Keyed first adds x' ∧ AttachesNone x x' := by
  obtain ⟨data, hdata, hret⟩ := bind_eq_ok_iff.mp hrm
  have hp := getData_eq_ok hdata
  obtain ⟨hwf, hhas⟩ := Hash.erase_spec h.hash data.key
  obtain rfl := Except.ok.inj hret
  refine ⟨⟨h.next, hwf, ?_, ?_⟩, attachesNone_setData hp none⟩
  · intro q d hq
    rw [setData_pipes] at hq
    split at hq
    · exact absurd hq (by simp)
    · rename_i hqp
      obtain ⟨h1, h2, h3, h4⟩ := h.attached q d hq
      exact ⟨h1, h2, (hhas _ _).mpr ⟨h3, fun hk => hqp (h.key_inj hq hp hk)⟩, h4⟩
  · intro key q hq
    obtain ⟨hq, hne⟩ := (hhas key q).mp hq
    obtain ⟨d, hd, hk⟩ := h.listed key q hq
    refine ⟨d, ?_, hk⟩
    rw [setData_pipes, if_neg]
    · exact hd
    · rintro rfl
      rw [hp] at hd
      exact hne (hk ▸ congrArg XrepData.key (Option.some.inj hd).symm)

/-- A pipe that can be sent to is marked as ready. -/
theorem Keyed.xrepOut {p : Nat} (h : Keyed first adds x) (hout : x.xrepOut p = .ok x')
    (hidle : ∃ data, x.pipes p = some data ∧ data.pipe.outstate = .idle) :
    Keyed first adds x' ∧ AttachesNone x x' := by
  obtain ⟨data, hdata, hret⟩ := bind_eq_ok_iff.mp hout
  obtain ⟨d, hd, hidle⟩ := hidle
  have hp := getData_eq_ok hdata
  obtain rfl := Option.some.inj (hp.symm.trans hd)
  obtain rfl := Except.ok.inj hret
  exact ⟨h.update hp rfl fun _ => hidle, attachesNone_setData hp _⟩

theorem Keyed.xrepIn {p : Nat} (h : Keyed first adds x) (hin : x.xrepIn p = .ok x') :
    Keyed first adds x' ∧ AttachesNone x x' := by
  obtain ⟨data, -, hret⟩ := bind_eq_ok_iff.mp hin
  obtain ⟨inpipes, -, hret⟩ := bind_eq_ok_iff.mp hret
  obtain rfl := Except.ok.inj hret
  exact ⟨h.congr rfl rfl rfl, AttachesNone.refl x⟩

theorem Keyed.receivedMsg {p : Nat} {wire : List UInt8} {r : Xrep × Bool}
    (h : Keyed first adds x) (hrec : x.receivedMsg p wire = .ok r) :
    Keyed first adds r.1 ∧ AttachesNone x r.1 := by
  obtain ⟨data, hdata, hret⟩ := bind_eq_ok_iff.mp hrec
  obtain ⟨r', harr, hret⟩ := bind_eq_ok_iff.mp hret
  have hp := getData_eq_ok hdata
  have hsame := Pipe.arrive_sameOut harr
  obtain rfl := Except.ok.inj hret
  exact ⟨h.update hp rfl fun hout => hsame.outstate.trans ((h.attached p data hp).2.2.2 hout),
    attachesNone_setData hp _⟩

theorem Keyed.sentMsg {p : Nat} {r : Xrep × Bool} (h : Keyed first adds x)
    (hsent : x.sentMsg p = .ok r) : Keyed first adds r.1 ∧ AttachesNone x r.1 := by
  obtain ⟨data, hdata, hret⟩ := bind_eq_ok_iff.mp hsent
  obtain ⟨r', hpipe, hret⟩ := bind_eq_ok_iff.mp hret
  have hp := getData_eq_ok hdata
  obtain rfl := Except.ok.inj hret
  refine ⟨h.update hp rfl fun hout => ?_, attachesNone_setData hp _⟩
  -- a pipe that is ready has nothing to report
  have hidle := (h.attached p data hp).2.2.2 hout
  simp [Pipe.sent, hidle] at hpipe

/-- A message is taken from a pipe. -/
theorem Keyed.fqRecv {r : Xrep × Option (Nat × List UInt8)} (h : Keyed first adds x)
    (hrecv : x.fqRecv = .ok r) :
    Keyed first adds r.1 ∧ AttachesNone x r.1 ∧ ∀ p wire, r.2 = some (p, wire) → r.1.pipes p ≠ none := by
  obtain ⟨o, -, hrecv⟩ := bind_eq_ok_iff.mp hrecv
  cases o with
  | none =>
      obtain rfl := Except.ok.inj hrecv
      exact ⟨h, AttachesNone.refl x, by simp⟩
  | some d =>
      obtain ⟨data, hdata, hret⟩ := bind_eq_ok_iff.mp hrecv
      obtain ⟨r', hpipe, hret⟩ := bind_eq_ok_iff.mp hret
      obtain ⟨inpipes, -, hret⟩ := bind_eq_ok_iff.mp hret
      have hp := getData_eq_ok hdata
      have hsame := Pipe.recv_sameOut hpipe
      obtain rfl := Except.ok.inj hret
      refine ⟨?_, attachesNone_setData hp _, fun p wire hsome => ?_⟩
      · have hup : Keyed first adds (x.setData d.pipe (some { data with pipe := r'.1 })) :=
          h.update hp rfl fun hout =>
            hsame.outstate.trans ((h.attached _ data hp).2.2.2 hout)
        exact hup.congr rfl rfl rfl
      · obtain ⟨rfl, -⟩ := Prod.mk.inj (Option.some.inj hsome)
        change (x.setData _ _).pipes _ ≠ none
        rw [setData_pipes, if_pos rfl]
        simp

/-- A request is received from an attached pipe. -/
theorem Keyed.recv {r : Xrep × Option (Nat × List UInt8 × Msg)} (h : Keyed first adds x)
    (hrecv : x.recv = .ok r) :
    Keyed first adds r.1 ∧ AttachesNone x r.1 ∧ ∀ p wire msg, r.2 = some (p, wire, msg) →
      p < adds ∧ r.1.pipes p ≠ none ∧ ∃ req, xrepSplit wire = some req ∧
        msg = { req with sphdr := putl (keyOf first p) ++ req.sphdr } := by
  obtain ⟨⟨x₁, o⟩, hfq, hret⟩ := bind_eq_ok_iff.mp hrecv
  obtain ⟨hkeyed, honly, hatt⟩ := h.fqRecv hfq
  have hsame : r.1 = x₁ := by
    cases o with
    | none => exact congrArg Prod.fst (Except.ok.inj hret).symm
    | some pw =>
        obtain ⟨p, wire⟩ := pw
        simp only at hret
        split at hret
        · exact congrArg Prod.fst (Except.ok.inj hret).symm
        · obtain ⟨_, -, hret⟩ := bind_eq_ok_iff.mp hret
          exact congrArg Prod.fst (Except.ok.inj hret).symm
  obtain ⟨x', o'⟩ := r
  obtain rfl : x' = x₁ := hsame
  refine ⟨hkeyed, honly, fun p wire msg hsome => ?_⟩
  obtain rfl : o' = some (p, wire, msg) := hsome
  obtain ⟨hfq', data, req, hp, hsplit, rfl⟩ := recv_some hrecv
  obtain ⟨-, rfl⟩ := Prod.mk.inj (Except.ok.inj (hfq.symm.trans hfq'))
  obtain ⟨hlt, hkey, -⟩ := h.attached p data hp
  exact ⟨hlt, hatt p wire rfl, req, hsplit, by rw [hkey]⟩

/-- An attached pipe that is marked as ready is served under its key. -/
theorem Keyed.serves (h : Keyed first adds x) {p : Nat} {data : XrepData}
    (hp : x.pipes p = some data) (hout : data.out = true) : x.Serves p data.key data := by
  obtain ⟨-, -, hhas, hidle⟩ := h.attached p data hp
  exact ⟨hp, rfl, h.hash.get_eq_some_iff.mpr hhas, hout, hidle hout⟩

/-- A reply goes to the attached pipe with the key at the top of its header, if that pipe
is ready, and nowhere else. -/
theorem Keyed.send (h : Keyed first adds x) {key : Nat} (hkey : key < 2 ^ 31)
    (stack body : List UInt8) :
    (∃ p data x', x.pipes p = some data ∧ data.key = key ∧ data.out = true ∧
      x.send { sphdr := putl key ++ stack, body := body } = .ok x' ∧ Keyed first adds x' ∧
      Delivered x x' p (stack ++ body)) ∨
    (∀ p data, x.pipes p = some data → data.key = key → data.out = false) ∧
      x.send { sphdr := putl key ++ stack, body := body } = .ok x := by
  by_cases hready : ∃ p data, x.pipes p = some data ∧ data.key = key ∧ data.out = true
  · obtain ⟨p, data, hp, rfl, hout⟩ := hready
    exact Or.inl ⟨p, data, _, hp, rfl, hout, (h.serves hp hout).send (by omega) stack body,
      h.update hp rfl (by simp), delivered_setData hp rfl⟩
  have hnone : ∀ p data, x.pipes p = some data → data.key = key → data.out = false :=
    fun p data hp hk => by
      rw [← Bool.not_eq_true]
      exact fun hout => hready ⟨p, data, hp, hk, hout⟩
  refine Or.inr ⟨hnone, ?_⟩
  have hlong : ¬ (putl key ++ stack).length < 4 := by simp
  have hget : getl (putl key ++ stack) = key := getl_putl (by omega) stack
  unfold Xrep.send
  rw [if_neg hlong]
  simp only [hget]
  cases hfind : x.outpipes.get key with
  | none => rfl
  | some p =>
      obtain ⟨data, hp, hk⟩ := h.listed key p (h.hash.get_eq_some_iff.mp hfind)
      simp [getData, hp, hnone p data hp hk]

end Xrep

/-! ## The socket -/

namespace Rep

open Xrep (keyOf)

/-- The pipes have their keys, and the way back that is kept is that of the last request:
no older pipe with the key of the asking pipe is attached. -/
structure Inv (first : Nat) (s : Rep) : Prop where
  keyed : s.xrep.Keyed first s.adds
  asked : s.inprogress = true → ∃ p wire req, s.asked = some (p, wire) ∧
    xrepSplit wire = some req ∧ s.backtrace = putl (keyOf first p) ++ req.sphdr ∧ p < s.adds ∧
    ∀ q, s.xrep.pipes q ≠ none → q < p → keyOf first q ≠ keyOf first p

theorem inv_init (key : Nat) : Inv (key % 2 ^ 32) (init key) :=
  ⟨Xrep.keyed_init key, fun h => by simp [init] at h⟩

/-- A step that changes the raw socket only, and attaches at most a new pipe. -/
theorem Inv.raw {first adds' : Nat} {s : Rep} {x' : Xrep} (h : Inv first s)
    (hkeyed : x'.Keyed first adds') (hle : s.adds ≤ adds')
    (hold : ∀ q, q < s.adds → s.xrep.pipes q = none → x'.pipes q = none) :
    Inv first { s with xrep := x', adds := adds' } := by
  refine ⟨hkeyed, fun hprog => ?_⟩
  obtain ⟨p, wire, req, h1, h2, h3, h4, h5⟩ := h.asked hprog
  exact ⟨p, wire, req, h1, h2, h3, Nat.lt_of_lt_of_le h4 hle, fun q hq hqp =>
    h5 q (fun hnone => hq (hold q (Nat.lt_trans hqp h4) hnone)) hqp⟩

/-- A request is received in place of the one before. -/
theorem Inv.recv {first : Nat} {s s' : Rep} {r : Result} (h : Inv first s)
    (hrecv : s.recv = .ok (s', r)) : Inv first s' := by
  unfold Rep.recv at hrecv
  obtain ⟨⟨x', o⟩, hx, hret⟩ := bind_eq_ok_iff.mp hrecv
  have hcancel : ∀ s₁ : Rep, s₁ = (if s.inprogress then
      { s with backtrace := [], inprogress := false } else s) →
      s₁.xrep = s.xrep ∧ s₁.adds = s.adds ∧ s₁.inprogress = false := by
    rintro s₁ rfl
    split
    · exact ⟨rfl, rfl, rfl⟩
    · rename_i hprog
      exact ⟨rfl, rfl, by simpa using hprog⟩
  generalize hs₁ : (if s.inprogress then
      ({ s with backtrace := [], inprogress := false } : Rep) else s) = s₁ at hx hret
  obtain ⟨hxrep, hadds, hprog⟩ := hcancel s₁ hs₁.symm
  rw [hxrep] at hx
  obtain ⟨hkeyed, -, hasked⟩ := h.keyed.recv hx
  cases o with
  | none =>
      obtain ⟨rfl, -⟩ := Prod.mk.inj (Except.ok.inj hret)
      exact ⟨hadds ▸ hkeyed, fun hp => by simp [hprog] at hp⟩
  | some pwm =>
      obtain ⟨p, wire, msg⟩ := pwm
      obtain ⟨rfl, -⟩ := Prod.mk.inj (Except.ok.inj hret)
      refine ⟨hadds ▸ hkeyed, fun _ => ?_⟩
      obtain ⟨hlt, hatt, req, hsplit, rfl⟩ := hasked p wire msg rfl
      refine ⟨p, wire, req, rfl, hsplit, rfl, hadds ▸ hlt, fun q hq hqp hkey => ?_⟩
      -- the asking pipe is attached now, so no other pipe has its key
      obtain ⟨d, hd⟩ := Option.ne_none_iff_exists'.mp hatt
      obtain ⟨e, he⟩ := Option.ne_none_iff_exists'.mp hq
      have heq := hkeyed.key_inj he hd
        (by rw [(hkeyed.attached q e he).2.1, (hkeyed.attached p d hd).2.1, hkey])
      omega

/-- What a reply does: it is sent on one pipe, or on none. -/
inductive Delivery (x x' : Xrep) (p : Nat) (wire : List UInt8) : Prop where
  | delivered (ready : ∃ data, x.pipes p = some data ∧ data.out = true)
      (sent : x.Delivered x' p wire)
  | discarded (gone : ∀ data, x.pipes p = some data → data.out = false)
      (same : x'.pipes = x.pipes)

/-- A send in a state that satisfies the invariant. -/
theorem Inv.send {first : Nat} {s : Rep} (h : Inv first s) {msg : Msg} (hhdr : msg.sphdr = [])
    (hprog : s.inprogress = true) :
    ∃ s' p wire req, s.send msg = .ok (s', .ok) ∧ Inv first s' ∧ s'.inprogress = false ∧
      s.asked = some (p, wire) ∧ xrepSplit wire = some req ∧
      (s.adds ≤ p + 2 ^ 31 →
        Delivery s.xrep s'.xrep p (Msg.wire { sphdr := req.sphdr, body := msg.body })) := by
  obtain ⟨p, wire, req, hasked, hsplit, hback, hlt, hold⟩ := h.asked hprog
  unfold Rep.send
  simp only [hprog, hhdr, gridAssert_pos, ok_bind, hback, Bool.not_true, Bool.false_eq_true,
    if_false]
  rcases h.keyed.send (Xrep.keyOf_lt first p) req.sphdr msg.body with
    ⟨q, data, x', hq, hkey, hout, hsend, hkeyed, hdel⟩ | ⟨hnone, hsend⟩
  · rw [hsend]
    refine ⟨_, p, wire, req, rfl, ⟨hkeyed, by simp⟩, rfl, hasked, hsplit, fun hfew => ?_⟩
    obtain ⟨hqlt, hqkey, -⟩ := h.keyed.attached q data hq
    have hkeys : keyOf first q = keyOf first p := hqkey.symm.trans hkey
    obtain rfl : q = p := by
      rcases Nat.lt_or_ge q p with hqp | hqp
      · exact absurd hkeys (hold q (by simp [hq]) hqp)
      · exact (Xrep.keyOf_inj hkeys.symm hqp (by omega)).symm
    exact .delivered ⟨data, hq, hout⟩ hdel
  · rw [hsend]
    refine ⟨_, p, wire, req, rfl, ⟨h.keyed, by simp⟩, rfl, hasked, hsplit, fun _ => ?_⟩
    exact .discarded (fun data hp => hnone p data hp (h.keyed.attached p data hp).2.1) rfl

/-- Every step keeps the invariant. -/
theorem Inv.step {first : Nat} {s s' : Rep} {l : Label} (h : Inv first s)
    (hstep : system.step s l s') : Inv first s' := by
  obtain ⟨hl, r, hnext⟩ := hstep
  cases l with
  | add sndprio rcvprio =>
      obtain ⟨x', hadd, hret⟩ := bind_eq_ok_iff.mp hnext
      obtain ⟨rfl, -⟩ := Prod.mk.inj (Except.ok.inj hret)
      obtain ⟨hkeyed, hsame⟩ := h.keyed.add hadd
      exact h.raw hkeyed (Nat.le_succ _) fun q hq hnone =>
        (hsame q (Nat.ne_of_lt hq)).trans hnone
  | rm p =>
      obtain ⟨x', hrm, hret⟩ := bind_eq_ok_iff.mp hnext
      obtain ⟨rfl, -⟩ := Prod.mk.inj (Except.ok.inj hret)
      obtain ⟨hkeyed, hnone⟩ := h.keyed.rm hrm
      exact h.raw hkeyed (Nat.le_refl _) fun q _ => hnone q
  | pipeIn p =>
      obtain ⟨x', hin, hret⟩ := bind_eq_ok_iff.mp hnext
      obtain ⟨rfl, -⟩ := Prod.mk.inj (Except.ok.inj hret)
      obtain ⟨hkeyed, hnone⟩ := h.keyed.xrepIn hin
      exact h.raw hkeyed (Nat.le_refl _) fun q _ => hnone q
  | pipeOut p =>
      obtain ⟨x', hout, hret⟩ := bind_eq_ok_iff.mp hnext
      obtain ⟨rfl, -⟩ := Prod.mk.inj (Except.ok.inj hret)
      obtain ⟨hkeyed, hnone⟩ := h.keyed.xrepOut hout hl
      exact h.raw hkeyed (Nat.le_refl _) fun q _ => hnone q
  | received p wire =>
      obtain ⟨r', hrec, hret⟩ := bind_eq_ok_iff.mp hnext
      obtain ⟨rfl, -⟩ := Prod.mk.inj (Except.ok.inj hret)
      obtain ⟨hkeyed, hnone⟩ := h.keyed.receivedMsg hrec
      exact h.raw hkeyed (Nat.le_refl _) fun q _ => hnone q
  | sent p =>
      obtain ⟨r', hsent, hret⟩ := bind_eq_ok_iff.mp hnext
      obtain ⟨rfl, -⟩ := Prod.mk.inj (Except.ok.inj hret)
      obtain ⟨hkeyed, hnone⟩ := h.keyed.sentMsg hsent
      exact h.raw hkeyed (Nat.le_refl _) fun q _ => hnone q
  | send msg =>
      cases hprog : s.inprogress with
      | false =>
          have hsend : s.next (.send msg) = .ok (s, .efsm) := by
            simp [next, Rep.send, hprog]
          obtain ⟨rfl, -⟩ := Prod.mk.inj (Except.ok.inj (hnext.symm.trans hsend))
          exact h
      | true =>
          by_cases hhdr : msg.sphdr = []
          · obtain ⟨s₁, _, _, _, hsend, hinv, -⟩ := h.send hhdr hprog
            obtain ⟨rfl, -⟩ := Prod.mk.inj (Except.ok.inj (hnext.symm.trans hsend))
            exact hinv
          · simp [next, Rep.send, hprog, gridAssert, hhdr] at hnext
  | recv => exact h.recv hnext

theorem inv_reachable {s : Rep} (h : system.Reachable s) : ∃ first, Inv first s := by
  refine h.invariant (P := fun s => ∃ first, Inv first s) ?_ ?_
  · rintro s ⟨key, rfl⟩
    exact ⟨_, inv_init key⟩
  · rintro s l s' - ⟨first, hinv⟩ hstep
    exact ⟨first, hinv.step hstep⟩

/-- A send without a request pending is refused and changes nothing.  A reply with one
pending goes, with the backtrace of the last request as its header, to the pipe that
request came in on if the pipe is still attached and ready, and nowhere otherwise, as
long as fewer than `2 ^ 31` pipes were added after that pipe. -/
theorem answers_asker {s : Rep}
    (h : Rep.system.Reachable s ∨ Survey.Respondent.system.Reachable s) (msg : Msg) :
    (s.inprogress = false → s.next (.send msg) = .ok (s, .efsm)) ∧
    (s.inprogress = true → msg.sphdr ≠ [] → s.next (.send msg) = .error .assertion) ∧
    (s.inprogress = true → msg.sphdr = [] → ∃ s' p wire req,
      s.next (.send msg) = .ok (s', .ok) ∧ s'.inprogress = false ∧
      s.asked = some (p, wire) ∧ xrepSplit wire = some req ∧
      (s.adds ≤ p + 2 ^ 31 →
        Delivery s.xrep s'.xrep p (Msg.wire { sphdr := req.sphdr, body := msg.body }))) := by
  obtain ⟨first, hinv⟩ := inv_reachable (h.elim id id)
  refine ⟨fun hprog => ?_, fun hprog hhdr => ?_, fun hprog hhdr => ?_⟩
  · simp [next, Rep.send, hprog]
  · simp [next, Rep.send, hprog, gridAssert, hhdr]
  · obtain ⟨s', p, wire, req, hsend, -, hdone, hasked, hsplit, hdel⟩ := hinv.send hhdr hprog
    exact ⟨s', p, wire, req, hsend, hdone, hasked, hsplit, hdel⟩

/-! ## A key that comes back -/

/-- A request without a way back but its ID. -/
def askedWire : List UInt8 := putl (setTopBit 1) ++ [97]

/-- The first pipe, which is ready, with a request waiting on it. -/
def asker : XrepData where
  key := 0
  out := true
  pipe := { instate := .idle, outstate := .idle, sndprio := 1, rcvprio := 1
            session := { inbox := [askedWire] } }

/-- The first pipe is the only one, and no request was received yet. -/
structure Asking (s : Rep) : Prop where
  first : s.xrep.pipes 0 = some asker
  others : ∀ q, q ≠ 0 → s.xrep.pipes q = none
  inpipes : Priolist.init.activate ⟨0, 1⟩ = .ok s.xrep.inpipes
  inprogress : s.inprogress = false

theorem exists_asking : ∃ s, system.Reachable s ∧ Inv 0 s ∧ Asking s ∧ s.adds = 1 := by
  have hrun : ∃ s₁ s₂ s₃ s₄, system.step (.init 0) (.add ⟨1, by decide⟩ ⟨1, by decide⟩) s₁ ∧
      system.step s₁ (.pipeOut 0) s₂ ∧ system.step s₂ (.received 0 askedWire) s₃ ∧
      system.step s₃ (.pipeIn 0) s₄ ∧ Asking s₄ ∧ s₄.adds = 1 := by
    refine ⟨_, _, _, _, ⟨trivial, _, rfl⟩, ⟨⟨_, rfl, rfl⟩, _, rfl⟩, ⟨trivial, _, rfl⟩,
      ⟨trivial, _, rfl⟩, ⟨rfl, fun q hq => ?_, rfl, rfl⟩, rfl⟩
    cases q with
    | zero => exact absurd rfl hq
    | succ q => rfl
  obtain ⟨s₁, s₂, s₃, s₄, h₁, h₂, h₃, h₄, hasking, hadds⟩ := hrun
  have hreach := System.Reachable.start (S := system) ⟨0, rfl⟩
  exact ⟨s₄, (((hreach.step h₁).step h₂).step h₃).step h₄,
    ((((inv_init 0).step h₁).step h₂).step h₃).step h₄, hasking, hadds⟩

/-- A pipe with a fresh key comes and goes. -/
theorem Asking.churn {s : Rep} (h : Asking s) (hreach : system.Reachable s) (hinv : Inv 0 s)
    (hpos : 0 < s.adds) (hlt : s.adds < 2 ^ 31) :
    ∃ s', system.Reachable s' ∧ Inv 0 s' ∧ Asking s' ∧ s'.adds = s.adds + 1 := by
  obtain ⟨x, hadd, hin, hpipes⟩ := hinv.keyed.add_ok (fun p hp hkey => by
    have hzero : p = 0 := Decidable.byContradiction fun hne => hp (h.others p hne)
    have := Xrep.keyOf_inj hkey (by omega) (by omega)
    omega) 1 (by decide : 1 ≤ 1 ∧ 1 ≤ 16)
  have hstep : system.step s (.add ⟨1, by decide⟩ ⟨1, by decide⟩)
      { s with xrep := x, adds := s.adds + 1 } :=
    ⟨trivial, .none, bind_eq_ok_iff.mpr ⟨x, hadd, rfl⟩⟩
  have hdata : x.getData s.adds = .ok { key := keyOf 0 s.adds, pipe := .start {
      sndprio := 1, rcvprio := 1, session := {} } } := by
    simp [Xrep.getData, hpipes, Xrep.setData_pipes]
  -- it was never active
  have hidle : x.inpipes.rm ⟨s.adds, 1⟩ = x.inpipes := by
    obtain ⟨inpipes, hact, -, hactive⟩ := Priolist.activate_spec Priolist.wf_init
      (Priolist.not_active_init ⟨0, 1⟩) (by decide) (by decide)
    rw [hin, ← Except.ok.inj (hact.symm.trans h.inpipes), Priolist.rm, if_neg]
    rw [hactive]
    rintro (heq | hnone)
    · exact absurd (congrArg PriolistData.pipe heq) (Nat.ne_of_gt hpos)
    · exact Priolist.not_active_init _ hnone
  have hrm : ∃ x', x.rm s.adds = .ok x' ∧ x'.inpipes = s.xrep.inpipes ∧
      ∀ q, x'.pipes q = s.xrep.pipes q := by
    unfold Xrep.rm
    rw [hdata]
    refine ⟨_, rfl, hidle.trans hin, fun q => ?_⟩
    rw [Xrep.setData_pipes]
    split
    · rename_i hq
      exact (h.others q (by omega)).symm
    · rename_i hq
      change x.pipes q = _
      rw [hpipes, Xrep.setData_pipes, if_neg hq]
  obtain ⟨x', hrm, hin', hpipes'⟩ := hrm
  have hstep' : system.step { s with xrep := x, adds := s.adds + 1 } (.rm s.adds)
      { s with xrep := x', adds := s.adds + 1 } :=
    ⟨trivial, .none, bind_eq_ok_iff.mpr ⟨x', hrm, rfl⟩⟩
  exact ⟨_, (hreach.step hstep).step hstep', (hinv.step hstep).step hstep',
    ⟨(hpipes' 0).trans h.first, fun q hq => (hpipes' q).trans (h.others q hq),
      h.inpipes.trans (congrArg Except.ok hin'.symm), h.inprogress⟩, rfl⟩

/-- All other keys have been used once. -/
theorem exists_used (n : Nat) (hn : n < 2 ^ 31) :
    ∃ s, system.Reachable s ∧ Inv 0 s ∧ Asking s ∧ s.adds = n + 1 := by
  induction n with
  | zero => exact exists_asking
  | succ n ih =>
      obtain ⟨s, hreach, hinv, hasking, hadds⟩ := ih (by omega)
      obtain ⟨s', hreach', hinv', hasking', hadds'⟩ :=
        hasking.churn hreach hinv (by omega) (by omega)
      exact ⟨s', hreach', hinv', hasking', by rw [hadds', hadds]⟩

/-- The request of the first pipe is received. -/
theorem Asking.recv {s : Rep} (h : Asking s) : ∃ s', system.step s .recv s' ∧
    s'.asked = some (0, askedWire) ∧ s'.inprogress = true ∧ s'.adds = s.adds ∧
    s'.backtrace = putl 0 ++ putl (setTopBit 1) ∧
    (∃ data, s'.xrep.pipes 0 = some data ∧ data.out = true) ∧
    ∀ q, q ≠ 0 → s'.xrep.pipes q = none := by
  have hget : s.xrep.inpipes.getpipe = .ok (some ⟨0, 1⟩) := by
    rw [← Except.ok.inj h.inpipes]
    rfl
  have hadv : ∃ inpipes, s.xrep.inpipes.advance true = .ok inpipes := by
    rw [← Except.ok.inj h.inpipes]
    exact ⟨_, rfl⟩
  obtain ⟨inpipes, hadv⟩ := hadv
  have hdata : s.xrep.getData 0 = .ok asker := by simp [Xrep.getData, h.first]
  have hpipe : asker.pipe.recv sessionVfptr =
      .ok ({ asker.pipe with instate := .async, session := {} }, askedWire, true) := rfl
  have hfq : s.xrep.fqRecv = .ok ({ s.xrep.setData 0 (some { asker with
      pipe := { asker.pipe with instate := .async, session := {} } }) with inpipes := inpipes },
      some (0, askedWire)) := by
    simp only [Xrep.fqRecv, hget, hdata, hpipe, hadv, ok_bind, pure_eq_ok]
  have hsplit : xrepSplit askedWire =
      some { sphdr := putl (setTopBit 1), body := [97] } := by decide
  have hx := Xrep.recv_of_fqRecv hfq hsplit rfl
  have hrecv : s.recv = .ok ({ s with
      xrep := { s.xrep.setData 0 (some { asker with
        pipe := { asker.pipe with instate := .async, session := {} } }) with inpipes := inpipes }
      backtrace := putl 0 ++ putl (setTopBit 1)
      inprogress := true, asked := some (0, askedWire) }, .request { body := [97] }) := by
    simp only [Rep.recv, h.inprogress, hx, ok_bind, pure_eq_ok, Bool.false_eq_true, if_false]
    rfl
  refine ⟨_, ⟨trivial, _, hrecv⟩, rfl, rfl, rfl, rfl, ⟨_, rfl, rfl⟩, fun q hq => ?_⟩
  simp [Xrep.setData, hq, h.others q hq]

theorem answers_asker_first : ∃ s s', system.Reachable s ∧
    s.next (.send { body := [98] }) = .ok (s', .ok) ∧
    Delivery s.xrep s'.xrep 0 (putl (setTopBit 1) ++ [98]) ∧
    ∃ data, s.xrep.pipes 0 = some data ∧ data.out = true := by
  obtain ⟨s, hreach, -, hasking, hadds⟩ := exists_asking
  obtain ⟨s₁, hrecv, hasked, hprog, hadds₁, -, hready, -⟩ := hasking.recv
  have hreach₁ := hreach.step hrecv
  obtain ⟨s₂, p, wire, req, hsend, -, hasked₁, hsplit, hdel⟩ :=
    (answers_asker (Or.inl hreach₁) { body := [98] }).2.2 hprog rfl
  obtain ⟨rfl, rfl⟩ := Prod.mk.inj (Option.some.inj (hasked₁.symm.trans hasked))
  have hreq : xrepSplit askedWire = some { sphdr := putl (setTopBit 1), body := [97] } := by
    decide
  obtain rfl := Option.some.inj (hreq.symm.trans hsplit)
  exact ⟨s₁, s₂, hreach₁, hsend, hdel (by omega), hready⟩

/-- One pipe is added between the receipt of a request and the reply to it, and the reply
goes to that pipe. -/
theorem not_answers_asker : ∃ s s₁ s₂ s₃ s₄ s₅ p, system.Reachable s ∧
    system.step s .recv s₁ ∧ system.step s₁ (.rm 0) s₂ ∧
    system.step s₂ (.add ⟨1, by decide⟩ ⟨1, by decide⟩) s₃ ∧ system.step s₃ (.pipeOut p) s₄ ∧
    s₄.asked = some (0, askedWire) ∧ p ≠ 0 ∧ s₄.next (.send { body := [98] }) = .ok (s₅, .ok) ∧
    s₄.xrep.Delivered s₅.xrep p (putl (setTopBit 1) ++ [98]) := by
  obtain ⟨s, hreach, hinv, hasking, hadds⟩ := exists_used (2 ^ 31 - 1) (by decide)
  obtain ⟨s₁, hrecv, hasked, hprog, hadds₁, hback, ⟨data, hdata, -⟩, hothers⟩ :=
    hasking.recv
  have hinv₁ := hinv.step hrecv
  -- the asking pipe goes
  have hrm : ∃ x, s₁.xrep.rm 0 = .ok x ∧ ∀ q, x.pipes q = none := by
    refine ⟨_, bind_eq_ok_iff.mpr ⟨data, by simp [Xrep.getData, hdata], rfl⟩, fun q => ?_⟩
    rw [Xrep.setData_pipes]
    split
    · rfl
    · rename_i hq
      exact hothers q hq
  obtain ⟨x₂, hrm, hnone⟩ := hrm
  have hstep₂ : system.step s₁ (.rm 0) { s₁ with xrep := x₂ } :=
    ⟨trivial, .none, bind_eq_ok_iff.mpr ⟨x₂, hrm, rfl⟩⟩
  have hinv₂ := hinv₁.step hstep₂
  -- a new one gets its key
  obtain ⟨x₃, hadd, -, hpipes₃⟩ := hinv₂.keyed.add_ok
    (fun p hp => absurd (hnone p) hp) 1 (by decide : 1 ≤ 1 ∧ 1 ≤ 16)
  have hstep₃ : system.step { s₁ with xrep := x₂ } (.add ⟨1, by decide⟩ ⟨1, by decide⟩)
      { s₁ with xrep := x₃, adds := s₁.adds + 1 } :=
    ⟨trivial, .none, bind_eq_ok_iff.mpr ⟨x₃, hadd, rfl⟩⟩
  have hinv₃ := hinv₂.step hstep₃
  have hadds₃ : s₁.adds = 2 ^ 31 := by omega
  have hnew : x₃.pipes s₁.adds = some { key := keyOf 0 s₁.adds, pipe := .start {
      sndprio := 1, rcvprio := 1, session := {} } } := by
    rw [hpipes₃, Xrep.setData_pipes, if_pos rfl]
  have hout : ∃ x₄, x₃.xrepOut s₁.adds = .ok x₄ ∧ ∀ q, x₄.pipes q =
      if q = s₁.adds then some { key := 0, out := true, pipe := .start {
        sndprio := 1, rcvprio := 1, session := {} } } else none := by
    refine ⟨_, bind_eq_ok_iff.mpr ⟨_, by rw [Xrep.getData, hnew], rfl⟩, fun q => ?_⟩
    rw [Xrep.setData_pipes]
    split
    · simp [keyOf, hadds₃]
    · rename_i hq
      rw [hpipes₃, Xrep.setData_pipes, if_neg hq]
      exact hnone q
  obtain ⟨x₄, hout, hpipes₄⟩ := hout
  have hstep₄ : system.step { s₁ with xrep := x₃, adds := s₁.adds + 1 } (.pipeOut s₁.adds)
      { s₁ with xrep := x₄, adds := s₁.adds + 1 } :=
    ⟨⟨_, hnew, rfl⟩, .none, bind_eq_ok_iff.mpr ⟨x₄, hout, rfl⟩⟩
  have hinv₄ := hinv₃.step hstep₄
  rcases hinv₄.keyed.send (by decide : 0 < 2 ^ 31) (putl (setTopBit 1)) [98] with
    ⟨q, d, x₅, hq, -, -, hsend, -, hdel⟩ | ⟨hnot, -⟩
  · obtain rfl : q = s₁.adds := Decidable.byContradiction fun hne => by
      rw [hpipes₄, if_neg hne] at hq
      exact absurd hq (by simp)
    have hreply : Rep.send { s₁ with xrep := x₄, adds := s₁.adds + 1 } { body := [98] } =
        .ok ({ s₁ with
          xrep := x₅, adds := s₁.adds + 1, backtrace := [], inprogress := false }, .ok) := by
      simp only [Rep.send, hprog, hback, Bool.not_true, Bool.false_eq_true, if_false,
        gridAssert_pos, ok_bind, hsend, pure_eq_ok]
    exact ⟨s, s₁, _, _, _, _, s₁.adds, hreach, hrecv, hstep₂, hstep₃, hstep₄, hasked,
      by omega, hreply, hdel⟩
  · have hfalse := hnot s₁.adds _ ((hpipes₄ _).trans (if_pos rfl)) rfl
    exact absurd hfalse (by simp)

end Rep

end GridMq.ReqRep
