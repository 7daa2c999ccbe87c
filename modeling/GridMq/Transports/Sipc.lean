import GridMq.Transports.Stcp

set_option autoImplicit false

/-!
# IPC sessions (`src/transports/ipc/sipc.c`)

The header of a message has a type byte in front of the length.  The handler asserts that
the type is the one of ordinary messages, and takes any length: unlike stcp it does not
look at `GRID_RCVMAXSIZE`.
-/

namespace GridMq.Transports.Sipc

open GridMq.Aio GridMq.Core GridMq.Library

/-- `GRID_SIPC_MSG_NORMAL`. -/
def msgNormal : UInt8 := 1

/-- The header of sipc: `inhdr`, `outhdr` and what the handler does with the first. -/
def wireFormat : WireFormat where
  hdrLen := 9
  outhdr size := msgNormal :: putll size
  checkHdr _ inhdr := do
    gridAssert (inhdr.head? = some msgNormal)
    return some (getll (inhdr.drop 1))

/-- `grid_sipc_send`. -/
def send (self : Stream) (msg : Msg) (io : Io) : Except Abort Stream :=
  self.send wireFormat msg io

/-- `grid_sipc_recv`. -/
def recv (self : Stream) (io : Io) : Except Abort (Stream × List UInt8) :=
  self.recv wireFormat io

/-- `grid_sipc_handler`, from the start of the pipe on. -/
def handler (opt : Int) (self : Session) (type : UsockEvent) (io : Io) :
    Except Abort Session :=
  self.handler wireFormat opt type io

theorem hdrLen_pos : 0 < wireFormat.hdrLen := by decide

/-- A frame that a peer can send: a type byte, a length and that many bytes, which memory
can hold. -/
structure PeerFrame where
  type : UInt8
  body : List UInt8
  fits : Fits body.length

/-- The frame as an IPC session gets it. -/
def PeerFrame.ipc (f : PeerFrame) : List UInt8 := f.type :: putll f.body.length ++ f.body

/-- The frame as a TCP session gets it. -/
def PeerFrame.tcp (f : PeerFrame) : List UInt8 := putll f.body.length ++ f.body

variable {opt : Int}

theorem checkHdr_cons (type : UInt8) (bytes : List UInt8) :
    wireFormat.checkHdr opt (type :: bytes) =
      (gridAssert (some type = some msgNormal) >>= fun _ => pure (some (getll bytes))) := rfl

theorem size_of_check {hdr : List UInt8} {size : Nat} (h : Fits size)
    (hcheck : wireFormat.checkHdr opt hdr = .ok (some size)) :
    (wireFormat.framing opt).size hdr = .ok size := by
  simp only [WireFormat.framing, hcheck, chunkrefInit_eq (Stcp.lt_of_fits h), if_pos h]

theorem size_normal {size : Nat} (h : Fits size) :
    (wireFormat.framing opt).size (msgNormal :: putll size) = .ok size := by
  refine size_of_check h ?_
  rw [checkHdr_cons, gridAssert_pos rfl, ok_bind, getll_putll (Stcp.lt_of_fits h)]
  rfl

theorem size_other {type : UInt8} {bytes : List UInt8} (h : type ≠ msgNormal) :
    (wireFormat.framing opt).size (type :: bytes) = .error (some .assertion) := by
  have hno : ¬ (some type = some msgNormal) := fun heq => h (Option.some.inj heq)
  have hcheck : wireFormat.checkHdr opt (type :: bytes) = .error .assertion := by
    rw [checkHdr_cons, gridAssert, if_neg hno, error_bind]
  simp only [WireFormat.framing, hcheck]

/-- Ordinary frames are cut out of the stream, whatever their length. -/
theorem frames_of_normal {frames : List PeerFrame} (h : ∀ f ∈ frames, f.type = msgNormal) :
    (wireFormat.framing opt).Frames (frames.map PeerFrame.ipc).flatten
      (frames.map PeerFrame.body) := by
  induction frames with
  | nil => exact .nil
  | cons f frames ih =>
      have hrest := ih fun f' hf' => h f' (List.mem_cons_of_mem f hf')
      have hframe : (wireFormat.framing opt).IsFrame (f.type :: putll f.body.length) f.body := by
        refine ⟨rfl, ?_⟩
        rw [h f List.mem_cons_self]
        exact size_normal f.fits
      rw [List.map_cons, List.flatten_cons, List.map_cons, PeerFrame.ipc, List.append_assoc]
      exact .cons hframe hrest

/-- Frames that are not too long are cut out of the stream of a TCP session. -/
theorem frames_tcp {frames : List PeerFrame}
    (h : ∀ f ∈ frames, 0 ≤ opt → (f.body.length : Int) ≤ opt) :
    (Stcp.wireFormat.framing opt).Frames (frames.map PeerFrame.tcp).flatten
      (frames.map PeerFrame.body) := by
  induction frames with
  | nil => exact .nil
  | cons f frames ih =>
      have hrest := ih fun f' hf' => h f' (List.mem_cons_of_mem f hf')
      have hframe : (Stcp.wireFormat.framing opt).IsFrame (putll f.body.length) f.body :=
        ⟨length_putll _, Stcp.size_accepts ⟨h f List.mem_cons_self, f.fits⟩⟩
      rw [List.map_cons, List.flatten_cons, List.map_cons, PeerFrame.tcp, List.append_assoc]
      exact .cons hframe hrest

/-- An IPC session that receives these frames, in any fragments, never ends the process;
and once it has come to rest it has delivered what a TCP session delivers that has come to
rest with the same frames, and has ended if that one has. -/
def AgreesWithTcp (opt : Int) (frames : List PeerFrame) : Prop :=
  ∀ b, (Session.flowing wireFormat opt).Reachable b →
    b.arrived <+: (frames.map PeerFrame.ipc).flatten →
    (∀ l, b.Safe wireFormat opt l) ∧
    (b.Quiet → b.arrived = (frames.map PeerFrame.ipc).flatten →
      ∀ c, (Session.flowing Stcp.wireFormat opt).Reachable c → c.Quiet →
        c.arrived = (frames.map PeerFrame.tcp).flatten →
        b.delivered = c.delivered ∧ (b.failed = true ↔ c.failed = true))

/-- A frame that an IPC session treats as a TCP session does. -/
def Ordinary (opt : Int) (f : PeerFrame) : Prop :=
  f.type = msgNormal ∧ (0 ≤ opt → (f.body.length : Int) ≤ opt)

/-- A session that is active was not stopped by its owner. -/
theorem failed_eq_false {fmt : WireFormat} {s : Session} (h : s.Flow fmt opt)
    (hactive : s.pipe.session.state = .active) : s.failed = false := by
  cases hf : s.failed with
  | false => rfl
  | true => exact absurd (hactive.symm.trans (h.failed hf).1) (by simp)

theorem agrees_of_ordinary {frames : List PeerFrame} (h : ∀ f ∈ frames, Ordinary opt f) :
    AgreesWithTcp opt frames := by
  rintro b hb ⟨unread, hunread⟩
  have hfb := Session.flow_of_reachable hdrLen_pos hb
  have hcut : (wireFormat.framing opt).Frames (frames.map PeerFrame.ipc).flatten
      (frames.map PeerFrame.body) := frames_of_normal fun f hf => (h f hf).1
  obtain ⟨-, hactive, hsafe, -⟩ := Session.receive_accepted hfb hdrLen_pos hcut hunread
  refine ⟨hsafe, ?_⟩
  intro hq hall c hc hcq hcall
  have hfc := Session.flow_of_reachable Stcp.hdrLen_pos hc
  have hb' := (Session.receive_accepted hfb hdrLen_pos hcut
    (by rw [hall, List.append_nil])).2.2.2 rfl hq
  obtain ⟨-, hcactive, -, hcdelivered⟩ := Session.receive_accepted hfc
    Stcp.hdrLen_pos (frames_tcp fun f hf => (h f hf).2) (by rw [hcall, List.append_nil])
  refine ⟨hb'.trans (hcdelivered rfl hcq).symm, ?_⟩
  rw [failed_eq_false hfb hactive, failed_eq_false hfc hcactive]

/-! ## What has to hold of the frames -/

/-- A session comes to rest with a stream at which no process ends. -/
theorem exists_quiet (opt : Int) {fmt : WireFormat} (hhdr : 0 < fmt.hdrLen) (bytes : List UInt8)
    (hsafe : ∀ s, (Session.flowing fmt opt).Reachable s → s.arrived = bytes → s.sent = [] →
      ∀ l, (∀ msg io, l ≠ .send msg io) → s.Safe fmt opt l) :
    ∃ s, (Session.flowing fmt opt).Reachable s ∧ s.arrived = bytes ∧ s.sent = [] ∧ s.Quiet := by
  obtain ⟨s₀, hstart, -, harr, hsent⟩ : ∃ s, Session.start fmt [] bytes (.bytes 0) = .ok s ∧
      s.Flow fmt opt ∧ s.arrived = [] ++ bytes ∧ s.sent = [] := Session.flow_start [] bytes hhdr
  have hinit : (Session.flowing fmt opt).init s₀ := ⟨[], bytes, 0, hstart⟩
  obtain ⟨s, hs, harr', hsent', hq | ⟨l, a, hp, herror⟩⟩ :=
    Session.exists_rest hhdr (System.Reachable.start hinit)
  · exact ⟨s, hs, harr'.trans harr, hsent'.trans hsent, hq⟩
  · have hl : ∀ msg io, l ≠ .send msg io := by
      rintro msg io rfl
      exact hp.2.2
    obtain ⟨s', hnext⟩ := hsafe s hs (harr'.trans harr) (hsent'.trans hsent) l hl hp.1 hp.2.1
    rw [herror] at hnext
    exact absurd hnext (by simp)

/-- A list of which not all elements have a property has a first one without it. -/
theorem exists_first {α : Type} {p : α → Prop} (l : List α) (h : ¬ ∀ x ∈ l, p x) :
    ∃ pre x post, l = pre ++ x :: post ∧ (∀ y ∈ pre, p y) ∧ ¬ p x := by
  induction l with
  | nil => exact absurd (by simp) h
  | cons x l ih =>
      by_cases hx : p x
      · have hl : ¬ ∀ y ∈ l, p y := fun hl => h fun y hy => by
          rcases List.mem_cons.mp hy with rfl | hy
          · exact hx
          · exact hl y hy
        obtain ⟨pre, y, post, rfl, hpre, hy⟩ := ih hl
        refine ⟨x :: pre, y, post, rfl, ?_, hy⟩
        intro z hz
        rcases List.mem_cons.mp hz with rfl | hz
        · exact hx
        · exact hpre z hz
      · exact ⟨[], x, l, rfl, by simp, hx⟩

/-- The assertion on the type byte ends the process for every other type. -/
theorem normal_of_agrees {frames : List PeerFrame} (h : AgreesWithTcp opt frames) :
    ∀ f ∈ frames, f.type = msgNormal := by
  by_contra hno
  obtain ⟨pre, f, post, rfl, hpre, hf⟩ := exists_first frames hno
  obtain ⟨b, hb, harr, -, hq⟩ := exists_quiet opt hdrLen_pos
    ((pre ++ f :: post).map PeerFrame.ipc).flatten
    fun s hs harr _ l _ => (h s hs ⟨[], by rw [harr, List.append_nil]⟩).1 l
  have hfb := Session.flow_of_reachable hdrLen_pos hb
  have hlen : (f.type :: putll f.body.length).length = (wireFormat.framing opt).hdrLen := rfl
  have hsize : (wireFormat.framing opt).size (f.type :: putll f.body.length) =
      .error (some .assertion) := size_other hf
  have hstream : ((pre ++ f :: post).map PeerFrame.ipc).flatten =
      (pre.map PeerFrame.ipc).flatten ++ ((f.type :: putll f.body.length) ++
        (f.body ++ (post.map PeerFrame.ipc).flatten)) := by
    simp [PeerFrame.ipc]
  rw [hstream] at harr
  obtain ⟨-, hat⟩ := hfb.quiet_delivered hq (frames_of_normal hpre)
    (Library.Framing.noFrame_of_error _ hlen hsize) harr
  cases hat with
  | hdr hopen hpart =>
      rw [List.length_append, hlen] at hpart
      omega
  | body hopen hpart hlen' hsize' hbody =>
      obtain ⟨heq, -⟩ := List.append_inj hpart (by rw [hlen, hlen'])
      rw [← heq, hsize] at hsize'
      exact absurd hsize' (by simp)
  | refused hfailed hpart hlen' hsize' =>
      obtain ⟨heq, -⟩ := List.append_inj hpart (by rw [hlen, hlen'])
      rw [← heq, hsize] at hsize'
      exact absurd (Except.error.inj hsize') (by simp)

/-- A TCP session ends at the first frame that is too long; an IPC session delivers it. -/
theorem short_of_agrees {frames : List PeerFrame} (h : AgreesWithTcp opt frames) :
    ∀ f ∈ frames, 0 ≤ opt → (f.body.length : Int) ≤ opt := by
  have hnormal := normal_of_agrees h
  by_contra hno
  obtain ⟨b, hb, harr, -, hq⟩ := exists_quiet opt hdrLen_pos
    (frames.map PeerFrame.ipc).flatten
    fun s hs harr _ l _ => (h s hs ⟨[], by rw [harr, List.append_nil]⟩).1 l
  have hfb := Session.flow_of_reachable hdrLen_pos hb
  have hdelivered := (Session.receive_accepted hfb hdrLen_pos
    (frames_of_normal hnormal) (by rw [harr, List.append_nil])).2.2.2 rfl hq
  obtain ⟨pre, f, post, rfl, hpre, hf⟩ := exists_first frames hno
  obtain ⟨h0, hgt⟩ := Classical.not_imp.mp hf
  have hsize := Stcp.size_oversize h0 (Int.not_le.mp hgt) (Stcp.lt_of_fits f.fits)
  have hlen : (putll f.body.length).length = Stcp.wireFormat.hdrLen := rfl
  have hcut := frames_tcp hpre
  have hstream : ((pre ++ f :: post).map PeerFrame.tcp).flatten =
      (pre.map PeerFrame.tcp).flatten ++ (putll f.body.length ++
        (f.body ++ (post.map PeerFrame.tcp).flatten)) := by
    simp [PeerFrame.tcp]
  obtain ⟨c, hc, hcarr, -, hcq⟩ := exists_quiet opt Stcp.hdrLen_pos
    ((pre ++ f :: post).map PeerFrame.tcp).flatten fun s hs harr hsent l hl =>
      have hfs := Session.flow_of_reachable Stcp.hdrLen_pos hs
      ((Session.receive_oversize hfs Stcp.hdrLen_pos hcut hlen hsize
        (by rw [harr, hstream, List.append_nil])).2.1 l).mpr
          fun hdropped => hfs.not_sendsDropped hsent hl hdropped.2.2
  have hfc := Session.flow_of_reachable Stcp.hdrLen_pos hc
  obtain ⟨hcdelivered, -⟩ := hfc.quiet_delivered hcq hcut
    (Library.Framing.noFrame_of_error (f.body ++ (post.map PeerFrame.tcp).flatten) hlen
      hsize) (hcarr.trans hstream)
  have hagree := (((h b hb ⟨[], by rw [harr, List.append_nil]⟩).2 hq harr) c hc hcq hcarr).1
  rw [hdelivered, hcdelivered] at hagree
  have hlength := congrArg List.length hagree
  simp at hlength

/-- IPC and TCP sessions accept the same of a sequence of frames exactly when all of them
are of the ordinary type and none is too long. -/
theorem agrees_with_tcp_iff {frames : List PeerFrame} :
    AgreesWithTcp opt frames ↔ ∀ f ∈ frames, Ordinary opt f :=
  ⟨fun h f hf => ⟨normal_of_agrees h f hf, short_of_agrees h f hf⟩, agrees_of_ordinary⟩

/-- A frame of two bytes, where one is the limit. -/
theorem not_agrees_with_tcp : ¬ AgreesWithTcp 1 [⟨msgNormal, [0, 0], by decide⟩] := by
  intro h
  exact absurd (short_of_agrees h _ List.mem_cons_self (by decide)) (by decide)

end GridMq.Transports.Sipc
