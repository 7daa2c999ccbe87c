import GridMq.Transports.BoundShutdown
import GridMq.Transports.Cipc
import GridMq.Transports.TcpAddressGrammar

set_option autoImplicit false

/-!
# The two transports that listen (`src/transports/tcp/btcp.c`, `src/transports/ipc/bipc.c`)

How each of them makes the address it listens at, from the string the endpoint was created with.
-/

namespace GridMq.Transports

/-! ## TCP -/

/-- What a parser returns.  A fault would be a read behind the string. -/
def parsed {β : Type} : Except AddrFault β → Except Abort β
  | .ok b => .ok b
  | .error _ => .error .nullPointer

/-- The checks of the address in `grid_btcp_start_listening`. -/
def btcpResolve (pton : InetPton) (s : List UInt8) (ipv4only : Bool) : Except Abort Unit :=
  match strrchr 58 s with
  | none => .error .assertion
  | some colon => do
      let portlen ← parsed (sizeT (s.length - (colon + 1)))
      let rc ← parsed (portLoop s (colon + 1) 0 portlen)
      gridAssert (0 ≤ rc)
      let rc ← parsed (ifaceResolve pton ipv4only s 0 colon)
      if rc = 0 then return () else .error .errnum

/-- `btcp.c`, for an address string.  The option is GRID_IPV4ONLY. -/
def btcp (pton : InetPton) (s : List UInt8) : ListenTransport Bool Unit where
  accepts ipv4only :=
    match btcpAddress pton ipv4only s with
    | .ok rc => decide (rc = 0)
    | .error _ => false
  resolve ipv4only _ := btcpResolve pton s ipv4only
  prepare _ := .ok ()
  unforeseen := .badAction

/-! ## IPC -/

/-- `strncpy` to memory that is set to zero. -/
def strncpy (src : List UInt8) (size : Nat) : List UInt8 :=
  src.take size ++ List.replicate (size - src.length) 0

/-- What `grid_bipc_start_listening` and `grid_cipc_start_connecting` put into `sun_path`. -/
def sunPath (addr : List UInt8) : Except Abort (List UInt8) := do
  gridAssert (addr.length < sunPathSize)
  return strncpy addr sunPathSize

/-- What the calls come to that look for a file of a previous run. -/
structure LeftoverAnswers where
  /-- `socket` gives a descriptor -/
  socket : Bool := true
  /-- `fcntl` succeeds, or fails with EINVAL -/
  fcntl : Bool := true
  /-- `connect` fails with ECONNREFUSED -/
  refused : Bool := false
  /-- `unlink` succeeds, or fails with ENOENT -/
  unlink : Bool := true
  close : Bool := true
  deriving DecidableEq, Repr

/-- `errno_assert`. -/
def errnoAssert (ok : Bool) : Except Abort Unit := if ok = true then .ok () else .error .errnum

/-- The file that a previous run has left is deleted. -/
def unlinkLeftover (os : LeftoverAnswers) : Except Abort Unit :=
  if os.socket = true then do
    errnoAssert os.fcntl
    errnoAssert (!os.refused || os.unlink)
    errnoAssert os.close
  else .ok ()

/-- `bipc.c`, for an address string.  No option is read. -/
def bipc (addr : List UInt8) : ListenTransport Unit LeftoverAnswers where
  accepts _ := true
  resolve _ _ := do
    let _ ← sunPath addr
    return ()
  prepare := unlinkLeftover
  unforeseen := .badState

/-! ## What the addresses come to -/

variable {pton : InetPton} {s : List UInt8} {ipv4only : Bool}

/-- `grid_btcp_create` accepts the addresses that have the form. -/
theorem btcp_accepts (hpton : pton.Documented) (hs : s.length < 128) :
    (btcp pton s).accepts ipv4only = true ↔
      IsBindAddress (IsBracketed (Literal pton ipv4only)) s := by
  obtain ⟨rc, haddress, hiff⟩ := @btcpAddress_iff s pton ipv4only hpton hs
  rw [← hiff]
  simp only [btcp, haddress, decide_eq_true_eq]

/-- What `grid_iface_resolve` can return. -/
theorem ifaceResolve_values {addr n : Nat} {rc : Int}
    (h : ifaceResolve pton ipv4only s addr n = .ok rc) : rc = 0 ∨ rc = ifaceNodev := by
  obtain ⟨star, -, h⟩ := bind_eq_ok_iff.mp h
  split at h
  · cases h
    exact Or.inl rfl
  · obtain ⟨rc', -, h⟩ := bind_eq_ok_iff.mp h
    cases h
    split
    · exact Or.inr rfl
    · exact Or.inl rfl

/-- The port and the interface are checked in turn. -/
theorem btcpResolve_parts (ipv4only : Bool) (hpton : pton.Documented) {iface port : List UInt8}
    (hcolon : 58 ∉ port)
    (hs : (iface ++ 58 :: port).length < 128) : ∃ rc rc' : Int,
    btcpResolve pton (iface ++ 58 :: port) ipv4only =
        (gridAssert (0 ≤ rc) >>= fun _ => if rc' = 0 then .ok () else .error .errnum) ∧
      (0 ≤ rc ↔ IsPort port) ∧
      (rc' = 0 ↔ iface = [42] ∨ IsBracketed (Literal pton ipv4only) iface) := by
  obtain ⟨rc, hloop, hrc⟩ := port_ok iface port
  obtain ⟨rc', hresolve, hrc'⟩ : ∃ rc', ifaceResolve pton ipv4only
      (iface ++ 58 :: port) 0 iface.length = .ok rc' ∧ _ := ifaceResolve_ok hpton (by simp) hs
  rw [slice_front] at hrc'
  have hlen : (iface ++ 58 :: port).length = iface.length + 1 + port.length :=
    length_around ..
  have hportlen : sizeT (((iface ++ 58 :: port).length : Int) - ((iface.length : Int) + 1)) =
      .ok port.length := by
    rw [sizeT_ok (by omega) (by omega)]
    congr 1
    omega
  refine ⟨rc, rc', ?_, Int.not_lt.symm.trans hrc, ?_⟩
  · unfold btcpResolve
    rw [strrchr_eq iface port hcolon]
    simp only
    rw [hportlen]
    simp only [parsed, ok_bind, hloop, hresolve, pure_eq_ok]
  · rw [← hrc']
    rcases ifaceResolve_values hresolve with rfl | rfl
    · decide
    · decide

/-- `grid_btcp_start_listening` runs into no check exactly where the address has the form. -/
theorem btcpResolve_iff (hpton : pton.Documented) (hs : s.length < 128) :
    btcpResolve pton s ipv4only = .ok () ↔
      IsBindAddress (IsBracketed (Literal pton ipv4only)) s := by
  cases hplace : strrchr 58 s with
  | none =>
      unfold btcpResolve
      rw [hplace]
      refine iff_of_false (fun h => by cases h) ?_
      rintro ⟨iface, port, rfl, -⟩
      exact absurd (List.mem_append_right iface List.mem_cons_self) (strrchr_none.mp hplace)
  | some colon =>
      obtain ⟨iface, port, rfl, hcolon, -⟩ := strrchr_some hplace
      obtain ⟨rc, rc', heq, hport, hiface⟩ :=
        btcpResolve_parts ipv4only hpton hcolon hs
      rw [heq, isBindAddress_iff hcolon, ← hport, ← hiface]
      constructor
      · intro h
        obtain ⟨_, hpos, hrest⟩ := bind_eq_ok_iff.mp h
        refine ⟨gridAssert_eq_ok_iff.mp hpos, ?_⟩
        by_contra hne
        rw [if_neg hne] at hrest
        cases hrest
      · rintro ⟨hpos, hzero⟩
        rw [gridAssert_pos hpos, ok_bind, if_pos hzero]

/-! ## GRID_IPV4ONLY -/

/-- A weaker notion of a literal gives more addresses. -/
theorem IsBindAddress.imp {P Q : List UInt8 → Prop} (h : IsBindAddress (IsBracketed P) s)
    (himp : ∀ a, P a → Q a) : IsBindAddress (IsBracketed Q) s := by
  obtain ⟨iface, port, hs, hcolon, hport, hstar | hplain | ⟨b, hb, hinner⟩⟩ := h
  · exact ⟨iface, port, hs, hcolon, hport, Or.inl hstar⟩
  · exact ⟨iface, port, hs, hcolon, hport, Or.inr (Or.inl (himp iface hplain))⟩
  · exact ⟨iface, port, hs, hcolon, hport, Or.inr (Or.inr ⟨b, hb, himp b hinner⟩)⟩

/-- The interface is an asterisk or an IPv4 address. -/
def IsIpv4BindAddress (pton : InetPton) (s : List UInt8) : Prop :=
  IsBindAddress (IsBracketed fun a => pton .inet a = true) s

theorem literal_true (a : List UInt8) : Literal pton true a ↔ pton .inet a = true := by
  simp [Literal, isLiteral]

/-- Without the option every literal is one. -/
theorem Literal.without {a : List UInt8} (h : Literal pton ipv4only a) :
    Literal pton false a := by
  cases ipv4only with
  | false => exact h
  | true =>
      rw [literal_true] at h
      simp [Literal, isLiteral, h]

/-- An address that was accepted can be parsed again unless the option forbids it. -/
theorem btcpResolve_again (ipv4only : Bool) (hpton : pton.Documented) (hs : s.length < 128)
    {option : Bool} (h : (btcp pton s).accepts option = true) :
    btcpResolve pton s ipv4only = .ok () ↔ (ipv4only = true → IsIpv4BindAddress pton s) := by
  rw [btcpResolve_iff hpton hs]
  cases ipv4only with
  | false =>
      refine iff_of_true ?_ (fun hfalse => absurd hfalse (by simp))
      exact ((btcp_accepts hpton hs).mp h).imp fun a ha => ha.without
  | true =>
      constructor
      · exact fun h _ => h.imp fun a ha => (literal_true a).mp ha
      · exact fun h => (h rfl).imp fun a ha => (literal_true a).mpr ha

/-! ## `sun_path` -/

/-- An address of `sun_path` is complete: it is the whole string, with a zero behind it. -/
def IsComplete (addr path : List UInt8) : Prop :=
  path.length = sunPathSize ∧ ∃ n, path = addr ++ 0 :: List.replicate n 0

theorem sunPath_complete {addr : List UInt8} (h : addr.length < sunPathSize) :
    ∃ path, sunPath addr = .ok path ∧ IsComplete addr path := by
  refine ⟨strncpy addr sunPathSize, ?_, ?_, sunPathSize - addr.length - 1, ?_⟩
  · simp only [sunPath, gridAssert_pos h, ok_bind, pure_eq_ok]
  · rw [strncpy, List.take_of_length_le (Nat.le_of_lt h), List.length_append, List.length_replicate]
    omega
  · have hsplit : sunPathSize - addr.length = (sunPathSize - addr.length - 1) + 1 := by omega
    rw [strncpy, List.take_of_length_le (Nat.le_of_lt h), hsplit, List.replicate_succ]
    rfl

theorem sunPath_long {addr : List UInt8} (h : ¬addr.length < sunPathSize) :
    sunPath addr = .error .assertion := by
  simp only [sunPath, gridAssert, if_neg h]
  rfl

end GridMq.Transports
