import GridMq.Library.Heap
import GridMq.Transports.TcpAddressGrammar

set_option autoImplicit false

/-!
# Endpoints that are rejected (`src/core/global.c`, `sock.c`, `ep.c`, `src/transports`)

An endpoint is made in three layers, each of which allocates: the socket, the endpoint and the
transport.  A transport that does not accept the address has the endpoint released.

What the state machines do once an endpoint was accepted is described elsewhere, and is left open
here.
-/

namespace GridMq.Transports

open GridMq.Library

/-! ## The state -/

/-- What memory is allocated for. -/
inductive EpBlock where
  | ep | ctcp | btcp | cipc | bipc | cinproc | binproc
  deriving DecidableEq, Repr

/-- `struct grid_ins_item`, as far as an address is looked up in it. -/
structure InsItem where
  addr : List UInt8
  deriving DecidableEq, Repr

/-- `struct grid_ep`, as it is found in a list of the socket. -/
structure SockEp where
  eid : Nat
  addr : List UInt8
  deriving DecidableEq, Repr

/-- The memory, the repository of inproc endpoints and the socket. -/
structure CreateState (σ : Type) where
  heap : Heap EpBlock := {}
  bound : List InsItem := []
  connected : List InsItem := []
  eps : List SockEp := []
  sdeps : List SockEp := []
  eid : Nat := 1
  ipv4only : Bool := true
  statistics : σ

/-- What ends the process. -/
inductive CreateFault where
  | address (fault : AddrFault)
  | heap
  | assertion
  deriving DecidableEq, Repr

/-- `inet_pton`, and what becomes of the state when the state machine of a new object is
started. -/
structure CreateEnv (σ : Type) where
  pton : InetPton
  started : EpBlock → Nat → CreateState σ → CreateState σ

/-- `EADDRINUSE`. -/
def addrInUse : Int := -98

/-- `ENAMETOOLONG`. -/
def nameTooLong : Int := -36

/-- `EPROTONOSUPPORT`. -/
def protoNoSupport : Int := -93

/-- `GRID_SOCKADDR_MAX`. -/
def sockaddrMax : Nat := 128

variable {σ : Type}

/-- `grid_alloc`. -/
def CreateState.alloc (self : CreateState σ) (b : EpBlock) : CreateState σ × Nat :=
  ({ self with heap := (self.heap.malloc b).1 }, (self.heap.malloc b).2)

/-- `grid_free`. -/
def CreateState.release (self : CreateState σ) (a : Nat) :
    Except CreateFault (CreateState σ) :=
  match self.heap.free a with
  | some heap => .ok { self with heap := heap }
  | none => .error .heap

/-! ## The transports -/

/-- What a transport makes of an address: the new object, or an error. -/
abbrev Created (σ : Type) := CreateState σ × Except Int Nat

/-- `grid_ins_bind`, as far as the repository is concerned. -/
def insBind (self : CreateState σ) (item : InsItem) : Except Int (CreateState σ) :=
  if self.bound.any fun bitem =>
      decide (item.addr.take sockaddrMax = bitem.addr.take sockaddrMax) then
    .error addrInUse
  else .ok { self with bound := self.bound ++ [item] }

/-- `grid_binproc_create`. -/
def binprocCreate (env : CreateEnv σ) (self : CreateState σ) (addr : List UInt8) :
    Except CreateFault (Created σ) :=
  let (s, a) := self.alloc .binproc
  match insBind s { addr := addr } with
  | .error rc => do
      let s ← s.release a
      return (s, .error rc)
  | .ok s => return (env.started .binproc a s, .ok a)

/-- `grid_cinproc_create`. -/
def cinprocCreate (env : CreateEnv σ) (self : CreateState σ) (addr : List UInt8) :
    Except CreateFault (Created σ) :=
  let (s, a) := self.alloc .cinproc
  let s := { s with connected := s.connected ++ [{ addr := addr }] }
  return (env.started .cinproc a s, .ok a)

/-- An object of a TCP transport.  Where the address is not accepted `grid_epbase_term` is called,
which does nothing. -/
def tcpCreate (b : EpBlock) (address : InetPton → Bool → List UInt8 → Except AddrFault Int)
    (env : CreateEnv σ) (self : CreateState σ) (addr : List UInt8) :
    Except CreateFault (Created σ) :=
  let (s, a) := self.alloc b
  match address env.pton s.ipv4only addr with
  | .error fault => .error (.address fault)
  | .ok rc => if rc < 0 then return (s, .error rc) else return (env.started b a s, .ok a)

/-- `grid_ctcp_create`. -/
def ctcpCreate (env : CreateEnv σ) (self : CreateState σ) (addr : List UInt8) :
    Except CreateFault (Created σ) :=
  tcpCreate .ctcp ctcpAddress env self addr

/-- `grid_btcp_create`. -/
def btcpCreate (env : CreateEnv σ) (self : CreateState σ) (addr : List UInt8) :
    Except CreateFault (Created σ) :=
  tcpCreate .btcp btcpAddress env self addr

/-- `grid_cipc_create` and `grid_bipc_create`, which accept every address. -/
def ipcCreate (b : EpBlock) (env : CreateEnv σ) (self : CreateState σ) (_ : List UInt8) :
    Except CreateFault (Created σ) :=
  let (s, a) := self.alloc b
  return (env.started b a s, .ok a)

/-- `struct grid_transport`. -/
inductive TransportKind where
  | inproc | ipc | tcp
  deriving DecidableEq, Repr

/-- `tp->name`. -/
def TransportKind.name : TransportKind → List UInt8
  | .inproc => [105, 110, 112, 114, 111, 99]
  | .ipc => [105, 112, 99]
  | .tcp => [116, 99, 112]

/-- `tp->bind` and `tp->connect`. -/
def TransportKind.create (env : CreateEnv σ) (self : CreateState σ) (bind : Bool)
    (addr : List UInt8) : TransportKind → Except CreateFault (Created σ)
  | .inproc => if bind then binprocCreate env self addr else cinprocCreate env self addr
  | .ipc => if bind then ipcCreate .bipc env self addr else ipcCreate .cipc env self addr
  | .tcp => if bind then btcpCreate env self addr else ctcpCreate env self addr

/-! ## The socket -/

/-- `grid_sock_add_ep`, with `grid_ep_init`: the number of the endpoint, or an error. -/
def sockAddEp (env : CreateEnv σ) (self : CreateState σ) (tp : TransportKind) (bind : Bool)
    (addr : List UInt8) : Except CreateFault (CreateState σ × Int) :=
  let (s, ep) := self.alloc .ep
  if addr.length > sockaddrMax then .error .assertion
  else do
    let (s, created) ← tp.create env s bind addr
    match created with
    | .error rc => do
        let s ← s.release ep
        return (s, rc)
    | .ok _ =>
        let s := env.started .ep ep s
        let new : SockEp := { eid := s.eid, addr := addr }
        return ({ s with eps := s.eps ++ [new], eid := s.eid + 1 }, s.eid)

/-- The protocol and the actual address. -/
def splitProtocol (addr : List UInt8) : Option (List UInt8 × List UInt8) :=
  match strchr 58 addr with
  | none => none
  | some delim =>
      if addr[delim + 1]? ≠ some 47 ∨ addr[delim + 2]? ≠ some 47 then none
      else some (addr.take delim, addr.drop (delim + 3))

/-- `grid_global_create_ep`, by which `grid_bind` and `grid_connect` make an endpoint. -/
def globalCreateEp (env : CreateEnv σ) (self : CreateState σ) (addr : Option (List UInt8))
    (bind : Bool) : Except CreateFault (CreateState σ × Int) :=
  match addr with
  | none => .ok (self, portInval)
  | some addr =>
      if addr.length ≥ sockaddrMax then .ok (self, nameTooLong)
      else
        match splitProtocol addr with
        | none => .ok (self, portInval)
        | some (proto, addr) =>
            match [TransportKind.inproc, .ipc, .tcp].find? fun tp => decide (tp.name = proto) with
            | none => .ok (self, protoNoSupport)
            | some tp => sockAddEp env self tp bind addr

/-! ## Traces -/

/-- Nothing has changed that an endpoint changes, and what is allocated is what was. -/
structure Untouched (s s' : CreateState σ) : Prop where
  blocks : s'.heap.blocks = s.heap.blocks
  bound : s'.bound = s.bound
  connected : s'.connected = s.connected
  eps : s'.eps = s.eps
  sdeps : s'.sdeps = s.sdeps
  eid : s'.eid = s.eid
  statistics : s'.statistics = s.statistics

/-- An endpoint that is rejected leaves no trace. -/
def LeavesNoTrace (env : CreateEnv σ) (s : CreateState σ) (addr : Option (List UInt8))
    (bind : Bool) : Prop :=
  ∃ s' rc, globalCreateEp env s addr bind = .ok (s', rc) ∧ (rc < 0 → Untouched s s')

/-- The address of a TCP endpoint that is not of the form that is accepted. -/
def RejectedByTcp (pton : InetPton) (ipv4only bind : Bool) (addr : List UInt8) : Prop :=
  if bind then ¬IsBindAddress (IsBracketed (Literal pton ipv4only)) addr
  else ¬IsConnectAddress (IsBracketed (Literal pton ipv4only)) addr

theorem Untouched.refl (s : CreateState σ) : Untouched s s := ⟨rfl, rfl, rfl, rfl, rfl, rfl, rfl⟩

/-! ## What was allocated -/

/-- What has changed is the memory. -/
def CreateState.withHeap (self : CreateState σ) (heap : Heap EpBlock) : CreateState σ :=
  { self with heap := heap }

@[simp] theorem withHeap_ipv4only (s : CreateState σ) (heap : Heap EpBlock) :
    (s.withHeap heap).ipv4only = s.ipv4only := rfl

/-- Where the memory is as it was before, all is. -/
theorem untouched_withHeap (s : CreateState σ) {heap : Heap EpBlock}
    (h : heap.blocks = s.heap.blocks) : Untouched s (s.withHeap heap) :=
  ⟨h, rfl, rfl, rfl, rfl, rfl, rfl⟩

theorem alloc_eq (s : CreateState σ) (b : EpBlock) :
    s.alloc b = (s.withHeap (s.heap.malloc b).1, s.heap.next) := rfl

/-- A block is released: the others are as they were. -/
theorem release_eq (s : CreateState σ) {a : Nat} (h : (s.heap.blocks a).isSome) :
    ∃ heap, s.release a = .ok (s.withHeap heap) ∧
      heap.blocks = Function.update s.heap.blocks a none := by
  refine ⟨s.heap.set a none (Heap.lt_next h), ?_, rfl⟩
  rw [CreateState.release, Heap.free, dif_pos h]
  rfl

/-- `grid_binproc_create` changes nothing where the address is in use. -/
theorem binprocCreate_inUse (env : CreateEnv σ) (s : CreateState σ) (addr : List UInt8)
    (h : s.bound.any (fun bitem =>
      decide (addr.take sockaddrMax = bitem.addr.take sockaddrMax)) = true) :
    ∃ heap, binprocCreate env s addr = .ok (s.withHeap heap, .error addrInUse) ∧
      heap.blocks = s.heap.blocks := by
  have hsome : ((s.withHeap (s.heap.malloc .binproc).1).heap.blocks s.heap.next).isSome := by
    show (Function.update s.heap.blocks s.heap.next (some EpBlock.binproc) s.heap.next).isSome
    rw [Function.update_self]
    rfl
  obtain ⟨heap, hrelease, hblocks⟩ := release_eq _ hsome
  refine ⟨heap, ?_, ?_⟩
  · have hins : insBind (s.withHeap (s.heap.malloc .binproc).1)
        { addr := addr } = .error addrInUse := if_pos h
    unfold binprocCreate
    simp only [alloc_eq, hins, hrelease]
    rfl
  · rw [hblocks]
    show Function.update (Function.update s.heap.blocks s.heap.next (some EpBlock.binproc))
      s.heap.next none = _
    rw [Function.update_idem, Function.update_eq_self_iff]
    exact (s.heap.fresh _ (Nat.le_refl _)).symm

theorem binprocCreate_free (env : CreateEnv σ) (s : CreateState σ) (addr : List UInt8)
    (h : s.bound.any (fun bitem =>
      decide (addr.take sockaddrMax = bitem.addr.take sockaddrMax)) = false) :
    ∃ s₁ a, binprocCreate env s addr = .ok (s₁, .ok a) := by
  have hins : insBind (s.withHeap (s.heap.malloc .binproc).1)
      { addr := addr } = .ok _ :=
    if_neg (fun hany => Bool.false_ne_true (h.symm.trans hany))
  unfold binprocCreate
  simp only [alloc_eq, hins]
  exact ⟨_, _, rfl⟩

/-- `grid_ctcp_create` and `grid_btcp_create` keep the object where they return an error. -/
theorem tcpCreate_rejected (env : CreateEnv σ) (s : CreateState σ) (b : EpBlock)
    (address : InetPton → Bool → List UInt8 → Except AddrFault Int) {addr : List UInt8} {rc : Int}
    (haddress : address env.pton s.ipv4only addr = .ok rc) (hrc : rc < 0) :
    tcpCreate b address env s addr =
      .ok (s.withHeap (s.heap.malloc b).1, .error rc) := by
  unfold tcpCreate
  simp only [alloc_eq, withHeap_ipv4only, haddress, if_pos hrc]
  rfl

theorem tcpCreate_accepted (env : CreateEnv σ) (s : CreateState σ) (b : EpBlock)
    (address : InetPton → Bool → List UInt8 → Except AddrFault Int) {addr : List UInt8}
    (haddress : address env.pton s.ipv4only addr = .ok 0) :
    ∃ s₁ a, tcpCreate b address env s addr = .ok (s₁, .ok a) := by
  unfold tcpCreate
  simp only [alloc_eq, withHeap_ipv4only, haddress]
  exact ⟨_, _, rfl⟩

/-! ## What the addresses come to -/

/-- The parsers of addresses return 0 or an error. -/
def ErrorOrZero (r : Except AddrFault Int) : Prop := ∀ rc, r = .ok rc → rc = 0 ∨ rc < 0

theorem errorOrZero_ok {rc : Int} (h : rc = 0 ∨ rc < 0) : ErrorOrZero (.ok rc) := by
  intro rc' heq
  rw [← Except.ok.inj heq]
  exact h

theorem ErrorOrZero.bind {α : Type} {x : Except AddrFault α} {f : α → Except AddrFault Int}
    (h : ∀ a, ErrorOrZero (f a)) : ErrorOrZero (x >>= f) := by
  intro rc heq
  obtain ⟨a, -, hf⟩ := bind_eq_ok_iff.mp heq
  exact h a rc hf

theorem errorOrZero_iface (rc : Int) :
    ErrorOrZero (.ok (if rc < 0 then ifaceNodev else 0)) := by
  split
  · exact errorOrZero_ok (Or.inr (by decide))
  · exact errorOrZero_ok (Or.inl rfl)

theorem errorOrZero_portInval : ErrorOrZero (.ok portInval) := errorOrZero_ok (Or.inr (by decide))

theorem ctcpAddress_errorOrZero (pton : InetPton) (ipv4only : Bool) (addr : List UInt8) :
    ErrorOrZero (ctcpAddress pton ipv4only addr) := by
  unfold ctcpAddress
  simp only
  split
  · exact errorOrZero_portInval
  · refine ErrorOrZero.bind fun portlen => ErrorOrZero.bind fun rc => ?_
    split
    · exact errorOrZero_portInval
    · refine ErrorOrZero.bind fun hostlen => ErrorOrZero.bind fun rejected => ?_
      split
      · exact errorOrZero_portInval
      · split
        · exact errorOrZero_ok (Or.inl rfl)
        · exact ErrorOrZero.bind fun rc => errorOrZero_iface rc

theorem btcpAddress_errorOrZero (pton : InetPton) (ipv4only : Bool) (addr : List UInt8) :
    ErrorOrZero (btcpAddress pton ipv4only addr) := by
  unfold btcpAddress
  split
  · exact errorOrZero_portInval
  · refine ErrorOrZero.bind fun portlen => ErrorOrZero.bind fun rc => ?_
    split
    · exact errorOrZero_portInval
    · exact ErrorOrZero.bind fun rc => errorOrZero_iface rc

/-! ## The socket's part -/

/-- An endpoint that the transport accepts has a number. -/
theorem sockAddEp_accepted (env : CreateEnv σ) (s : CreateState σ) {tp : TransportKind}
    {bind : Bool} {addr : List UInt8} {s₁ : CreateState σ} {epbase : Nat}
    (hlength : addr.length ≤ sockaddrMax)
    (h : tp.create env (s.alloc .ep).1 bind addr = .ok (s₁, .ok epbase)) :
    ∃ s' eid, sockAddEp env s tp bind addr = .ok (s', Int.ofNat eid) := by
  unfold sockAddEp
  simp only
  rw [if_neg (Nat.not_lt.mpr hlength), h, ok_bind]
  exact ⟨_, _, rfl⟩

/-- One that it does not accept is released. -/
theorem sockAddEp_rejected (env : CreateEnv σ) (s : CreateState σ) {tp : TransportKind}
    {bind : Bool} {addr : List UInt8} {heap : Heap EpBlock} {rc : Int}
    (hlength : addr.length ≤ sockaddrMax)
    (h : tp.create env (s.alloc .ep).1 bind addr =
      .ok ((s.alloc .ep).1.withHeap heap, .error rc))
    (hsome : (heap.blocks s.heap.next).isSome) :
    ∃ heap', sockAddEp env s tp bind addr = .ok (s.withHeap heap', rc) ∧
      heap'.blocks = Function.update heap.blocks s.heap.next none := by
  obtain ⟨heap', hrelease, hblocks⟩ := release_eq ((s.alloc .ep).1.withHeap heap) hsome
  refine ⟨heap', ?_, hblocks⟩
  unfold sockAddEp
  simp only
  rw [if_neg (Nat.not_lt.mpr hlength), h, ok_bind]
  show ((s.alloc .ep).1.withHeap heap).release s.heap.next >>= _ = _
  rw [hrelease]
  rfl

/-- The attempt to make an endpoint, where the transport is known. -/
def AttemptLeavesNoTrace (env : CreateEnv σ) (s : CreateState σ) (tp : TransportKind)
    (bind : Bool) (addr : List UInt8) : Prop :=
  ∃ s' rc, sockAddEp env s tp bind addr = .ok (s', rc) ∧ (rc < 0 → Untouched s s')

theorem attempt_accepted (env : CreateEnv σ) (s : CreateState σ) {tp : TransportKind}
    {bind : Bool} {addr : List UInt8} (hlength : addr.length ≤ sockaddrMax)
    (h : ∃ s₁ epbase, tp.create env (s.alloc .ep).1 bind addr = .ok (s₁, .ok epbase)) :
    AttemptLeavesNoTrace env s tp bind addr := by
  obtain ⟨s₁, epbase, hcreate⟩ := h
  obtain ⟨s', eid, hadd⟩ := sockAddEp_accepted env s hlength hcreate
  refine ⟨s', Int.ofNat eid, hadd, fun hneg => ?_⟩
  exact absurd hneg (Int.not_lt.mpr (Int.natCast_nonneg eid))

/-- An inproc endpoint leaves no trace where it is rejected. -/
theorem attempt_inproc (env : CreateEnv σ) (s : CreateState σ) (bind : Bool) {addr : List UInt8}
    (hlength : addr.length ≤ sockaddrMax) : AttemptLeavesNoTrace env s .inproc bind addr := by
  cases bind with
  | false => exact attempt_accepted env s hlength ⟨_, _, rfl⟩
  | true =>
    cases hbound : s.bound.any fun bitem =>
        decide (addr.take sockaddrMax = bitem.addr.take sockaddrMax) with
    | false => exact attempt_accepted env s hlength (binprocCreate_free env _ addr hbound)
    | true =>
      obtain ⟨heap, hcreate, hblocks⟩ := binprocCreate_inUse env (s.alloc .ep).1 addr hbound
      have hrejected : TransportKind.create env (s.alloc .ep).1 true addr .inproc =
          .ok ((s.alloc .ep).1.withHeap heap, .error addrInUse) := hcreate
      have hep : (s.alloc .ep).1.heap.blocks =
          Function.update s.heap.blocks s.heap.next (some EpBlock.ep) := rfl
      rw [hep] at hblocks
      obtain ⟨heap', hadd, hblocks'⟩ := sockAddEp_rejected env s hlength hrejected
        (by rw [hblocks, Function.update_self]; rfl)
      refine ⟨_, _, hadd, fun _ => untouched_withHeap s ?_⟩
      rw [hblocks', hblocks, Function.update_idem, Function.update_eq_self_iff]
      exact (s.heap.fresh _ (Nat.le_refl _)).symm

theorem attempt_ipc (env : CreateEnv σ) (s : CreateState σ) (bind : Bool) {addr : List UInt8}
    (hlength : addr.length ≤ sockaddrMax) : AttemptLeavesNoTrace env s .ipc bind addr := by
  cases bind with
  | false => exact attempt_accepted env s hlength ⟨_, _, rfl⟩
  | true => exact attempt_accepted env s hlength ⟨_, _, rfl⟩

/-- An object of a TCP transport is left behind where the address is not accepted. -/
theorem attempt_of_address (env : CreateEnv σ) (s : CreateState σ) {bind : Bool} {b : EpBlock}
    {address : InetPton → Bool → List UInt8 → Except AddrFault Int} {addr : List UInt8} {rc : Int}
    (hlength : addr.length ≤ sockaddrMax)
    (hcreate : TransportKind.create env (s.alloc .ep).1 bind addr .tcp =
      tcpCreate b address env (s.alloc .ep).1 addr)
    (haddress : address env.pton s.ipv4only addr = .ok rc) (hrc : rc = 0 ∨ rc < 0) :
    AttemptLeavesNoTrace env s .tcp bind addr ↔ rc = 0 := by
  rcases hrc with rfl | hneg
  · refine iff_of_true (attempt_accepted env s hlength ?_) rfl
    rw [hcreate]
    exact tcpCreate_accepted env _ b address haddress
  · refine iff_of_false ?_ (Int.ne_of_lt hneg)
    rintro ⟨s', rc', hadd, huntouched⟩
    rw [tcpCreate_rejected env (s.alloc .ep).1 b address haddress hneg] at hcreate
    have hblocks : ((s.alloc .ep).1.heap.malloc b).1.blocks =
        Function.update (Function.update s.heap.blocks s.heap.next (some EpBlock.ep))
          (s.heap.next + 1) (some b) := rfl
    obtain ⟨heap', hadd', hblocks'⟩ := sockAddEp_rejected env s hlength hcreate (by
      rw [hblocks, Function.update_of_ne (Nat.ne_of_lt (Nat.lt_succ_self _)),
        Function.update_self]
      rfl)
    obtain ⟨rfl, rfl⟩ := Prod.mk.inj (Except.ok.inj (hadd'.symm.trans hadd))
    have hsame : heap'.blocks = s.heap.blocks := (huntouched hneg).blocks
    have hleft : heap'.blocks (s.heap.next + 1) = some b := by
      rw [hblocks', Function.update_of_ne (Nat.succ_ne_self _), hblocks, Function.update_self]
    rw [hsame, s.heap.fresh _ (Nat.le_succ _)] at hleft
    exact Option.noConfusion rfl (heq_of_eq hleft)

/-- A TCP endpoint leaves its object behind where it is rejected. -/
theorem attempt_tcp (env : CreateEnv σ) (hpton : env.pton.Documented) (s : CreateState σ)
    (bind : Bool) {addr : List UInt8} (hlength : addr.length < sockaddrMax) :
    AttemptLeavesNoTrace env s .tcp bind addr ↔ ¬RejectedByTcp env.pton s.ipv4only bind addr := by
  cases bind with
  | false =>
    obtain ⟨rc, haddress, hiff⟩ : ∃ rc, ctcpAddress env.pton s.ipv4only addr = .ok rc ∧ _ :=
      ctcpAddress_ok hpton hlength
    rw [attempt_of_address env s (Nat.le_of_lt hlength) rfl haddress
      (ctcpAddress_errorOrZero _ _ _ rc haddress), hiff, RejectedByTcp,
      if_neg Bool.false_ne_true, not_not]
  | true =>
    obtain ⟨rc, haddress, hiff⟩ : ∃ rc, btcpAddress env.pton s.ipv4only addr = .ok rc ∧ _ :=
      btcpAddress_iff hpton hlength
    rw [attempt_of_address env s (Nat.le_of_lt hlength) rfl haddress
      (btcpAddress_errorOrZero _ _ _ rc haddress), hiff, RejectedByTcp, if_pos rfl, not_not]

/-! ## The address -/

/-- An address is a protocol without a colon and the rest. -/
theorem splitProtocol_eq (proto rest : List UInt8) (h : 58 ∉ proto) :
    splitProtocol (proto ++ 58 :: 47 :: 47 :: rest) = some (proto, rest) := by
  rw [splitProtocol, strchr_eq proto _ h]
  simp

theorem splitProtocol_some {addr proto rest : List UInt8}
    (h : splitProtocol addr = some (proto, rest)) : addr = proto ++ 58 :: 47 :: 47 :: rest := by
  rw [splitProtocol] at h
  cases hdelim : strchr 58 addr with
  | none =>
    rw [hdelim] at h
    exact absurd h nofun
  | some delim =>
    obtain ⟨front, back, rfl, hfront, rfl⟩ := strchr_some hdelim
    rw [hdelim] at h
    simp only at h
    split at h
    · exact absurd h nofun
    · rename_i hslashes
      rw [not_or, not_not, not_not] at hslashes
      obtain ⟨hfirst, hsecond⟩ := hslashes
      rw [List.getElem?_append_right (by omega), Nat.add_sub_cancel_left] at hfirst hsecond
      cases back with
      | nil => exact absurd hfirst nofun
      | cons a back =>
        cases back with
        | nil => exact absurd hsecond nofun
        | cons b back =>
          obtain rfl : a = 47 := Option.some.inj hfirst
          obtain rfl : b = 47 := Option.some.inj hsecond
          obtain ⟨rfl, rfl⟩ := Prod.mk.inj (Option.some.inj h)
          simp

/-- Without an endpoint nothing changes. -/
theorem leavesNoTrace_refused {env : CreateEnv σ} {s : CreateState σ}
    {addr : Option (List UInt8)} {bind : Bool} {rc : Int}
    (h : globalCreateEp env s addr bind = .ok (s, rc)) : LeavesNoTrace env s addr bind :=
  ⟨s, rc, h, fun _ => Untouched.refl s⟩

/-- The name of a protocol tells which transport it is. -/
theorem find_transport {proto : List UInt8} {tp : TransportKind}
    (h : [TransportKind.inproc, .ipc, .tcp].find? (fun tp => decide (tp.name = proto)) = some tp) :
    tp.name = proto := by
  have hfound := List.find?_some h
  exact of_decide_eq_true hfound

/-- The address of a TCP endpoint. -/
def tcpAddress (rest : List UInt8) : List UInt8 := TransportKind.tcp.name ++ 58 :: 47 :: 47 :: rest

theorem splitProtocol_tcp (rest : List UInt8) :
    splitProtocol (tcpAddress rest) = some (TransportKind.tcp.name, rest) :=
  splitProtocol_eq _ rest (by decide)

/-- A rejected endpoint leaves no trace unless it is one of a TCP transport that does not accept
the address. -/
theorem leavesNoTrace_iff (env : CreateEnv σ) (hpton : env.pton.Documented) (s : CreateState σ)
    (addr : Option (List UInt8)) (bind : Bool) :
    LeavesNoTrace env s addr bind ↔
      ∀ rest, addr = some (tcpAddress rest) → (tcpAddress rest).length < sockaddrMax →
        ¬RejectedByTcp env.pton s.ipv4only bind rest := by
  cases addr with
  | none => exact iff_of_true (leavesNoTrace_refused rfl) nofun
  | some addr =>
    by_cases hlong : addr.length ≥ sockaddrMax
    · refine iff_of_true (leavesNoTrace_refused (if_pos hlong)) ?_
      intro rest heq hlength
      rw [← Option.some.inj heq] at hlength
      exact absurd hlong (Nat.not_le.mpr hlength)
    · have hcreate : globalCreateEp env s (some addr) bind = _ := if_neg hlong
      cases hsplit : splitProtocol addr with
      | none =>
        rw [hsplit] at hcreate
        refine iff_of_true (leavesNoTrace_refused hcreate) ?_
        intro rest heq
        rw [Option.some.inj heq, splitProtocol_tcp] at hsplit
        exact absurd hsplit nofun
      | some parts =>
        obtain ⟨proto, rest⟩ := parts
        rw [hsplit] at hcreate
        simp only at hcreate
        have hparts := splitProtocol_some hsplit
        have hlength : rest.length < sockaddrMax := by
          have hshort := Nat.not_le.mp hlong
          rw [hparts, List.length_append, List.length_cons, List.length_cons,
            List.length_cons] at hshort
          omega
        have htcp : ∀ rest', some addr = some (tcpAddress rest') →
            proto = TransportKind.tcp.name ∧ rest = rest' := by
          intro rest' heq
          rw [Option.some.inj heq, splitProtocol_tcp] at hsplit
          obtain ⟨rfl, rfl⟩ := Prod.mk.inj (Option.some.inj hsplit)
          exact ⟨rfl, rfl⟩
        cases hfind : [TransportKind.inproc, .ipc, .tcp].find?
            fun tp => decide (tp.name = proto) with
        | none =>
          rw [hfind] at hcreate
          refine iff_of_true (leavesNoTrace_refused hcreate) ?_
          intro rest' heq
          obtain ⟨rfl, -⟩ := htcp rest' heq
          exact absurd hfind (by decide)
        | some tp =>
          rw [hfind] at hcreate
          simp only at hcreate
          have hattempt : LeavesNoTrace env s (some addr) bind ↔
              AttemptLeavesNoTrace env s tp bind rest := by
            rw [LeavesNoTrace, hcreate]
            rfl
          rw [hattempt]
          have hname := find_transport hfind
          cases tp with
          | inproc =>
            refine iff_of_true (attempt_inproc env s bind (Nat.le_of_lt hlength)) ?_
            intro rest' heq
            exact absurd (hname.trans (htcp rest' heq).1) (by decide)
          | ipc =>
            refine iff_of_true (attempt_ipc env s bind (Nat.le_of_lt hlength)) ?_
            intro rest' heq
            exact absurd (hname.trans (htcp rest' heq).1) (by decide)
          | tcp =>
            rw [attempt_tcp env hpton s bind hlength]
            constructor
            · intro haccepted rest' heq _
              rw [← (htcp rest' heq).2]
              exact haccepted
            · intro hall
              have haddr : addr = tcpAddress rest := by
                rw [hparts, ← hname]
                rfl
              refine hall rest (by rw [haddr]) ?_
              rw [← haddr]
              exact Nat.not_le.mp hlong

/-- Nothing is started. -/
def quietEnv : CreateEnv Unit where
  pton := loopbackOnly
  started := fun _ _ s => s

/-- A TCP address without a port. -/
theorem leavesNoTrace_iff_noPort :
    (LeavesNoTrace quietEnv { statistics := () } (some (tcpAddress [97])) false ↔
      ∀ rest, some (tcpAddress [97]) = some (tcpAddress rest) →
        (tcpAddress rest).length < sockaddrMax → ¬RejectedByTcp loopbackOnly true false rest) :=
  leavesNoTrace_iff quietEnv loopbackOnly_documented { statistics := () } _ false

/-- `tcp://a` has no port, and the object of the transport is not released. -/
theorem not_leavesNoTrace : ¬LeavesNoTrace quietEnv { statistics := () }
    (some (tcpAddress [97])) false := by
  rintro ⟨s', rc, hcreate, huntouched⟩
  have hrun : ∃ heap, globalCreateEp quietEnv { statistics := () } (some (tcpAddress [97])) false =
      .ok (CreateState.withHeap { statistics := () } heap, portInval) ∧
        heap.blocks 2 = some EpBlock.ctcp := ⟨_, rfl, rfl⟩
  obtain ⟨heap, hrun, hleft⟩ := hrun
  obtain ⟨rfl, rfl⟩ := Prod.mk.inj (Except.ok.inj (hrun.symm.trans hcreate))
  have hblocks : heap.blocks = fun _ => none := (huntouched (by decide)).blocks
  rw [hblocks] at hleft
  exact Option.noConfusion rfl (heq_of_eq hleft)

end GridMq.Transports
