import GridMq.Transports.Ctcp

set_option autoImplicit false

/-!
# TCP addresses (`src/transports/tcp/ctcp.c`, `btcp.c`, `src/transports/utils`)

The parsers work on the bytes of the address string, each from a place in it and over a number of
bytes.  A read behind the string and a number that does not fit in its type are faults.
-/

namespace GridMq.Transports

/-! ## Memory and numbers -/

/-- What must not happen. -/
inductive AddrFault where
  /-- a byte that is not one of the string is read -/
  | outside
  | overflow
  deriving DecidableEq, Repr

/-- `ENODEV`. -/
def ifaceNodev : Int := -19

/-- A byte of the string. -/
def readByte (s : List UInt8) (i : Nat) : Except AddrFault UInt8 :=
  match s[i]? with
  | none => .error .outside
  | some c => .ok c

/-- `memcpy` from the string. -/
def readBytes (s : List UInt8) (i len : Nat) : Except AddrFault (List UInt8) :=
  if i + len ≤ s.length then .ok ((s.drop i).take len) else .error .outside

/-- A `size_t`. -/
def sizeT (x : Int) : Except AddrFault Nat :=
  if 0 ≤ x ∧ x < 0x10000000000000000 then .ok x.toNat else .error .overflow

/-- An `int`. -/
def intT (x : Int) : Except AddrFault Int :=
  if -0x80000000 ≤ x ∧ x < 0x80000000 then .ok x else .error .overflow

/-- `strchr`, as a position. -/
def strchr (c : UInt8) : List UInt8 → Option Nat
  | [] => none
  | x :: s => if x = c then some 0 else (strchr c s).map (· + 1)

/-- `strrchr`, as a position. -/
def strrchr (c : UInt8) : List UInt8 → Option Nat
  | [] => none
  | x :: s =>
      match strrchr c s with
      | some i => some (i + 1)
      | none => if x = c then some 0 else none

/-! ## The parsers -/

/-- The loop of `grid_port_resolve`.  A byte from 128 on is no digit, whether it is signed or
not. -/
def portLoop (s : List UInt8) : Nat → Int → Nat → Except AddrFault Int
  | _, res, 0 => .ok (if res = 0 then portInval else res)
  | port, res, n + 1 => do
      let c ← readByte s port
      if c < 48 ∨ c > 57 then return portInval
      else
        let res ← intT (res * 10)
        let res ← intT (res + (c.toNat - 48))
        if res > 0xffff then return portInval else portLoop s (port + 1) res n

/-- A letter, a digit or a hyphen. -/
def hostChar (c : UInt8) : Bool :=
  (97 ≤ c && c ≤ 122) || (65 ≤ c && c ≤ 90) || (48 ≤ c && c ≤ 57) || c == 45

/-- The loop of `grid_dns_check_hostname`. -/
def hostLoop (s : List UInt8) : Nat → Int → Nat → Except AddrFault Int
  | _, labelsz, 0 => .ok (if labelsz = 0 then portInval else 0)
  | name, labelsz, n + 1 => do
      let c ← readByte s name
      if c = 46 then
        if labelsz = 0 then return portInval else hostLoop s (name + 1) 0 n
      else if hostChar c = true then
        let labelsz ← intT (labelsz + 1)
        if labelsz > 63 then return portInval else hostLoop s (name + 1) labelsz n
      else return portInval

/-- `grid_dns_check_hostname`. -/
def dnsCheckHostname (s : List UInt8) (name namelen : Nat) : Except AddrFault Int :=
  if namelen < 1 ∨ namelen > 255 then .ok portInval
  else do
    let c ← readByte s name
    if c = 45 then return portInval else hostLoop s name 0 namelen

/-- `AF_INET` and `AF_INET6`. -/
inductive AddrFamily where
  | inet | inet6
  deriving DecidableEq, Repr

/-- `inet_pton`, as far as it tells whether a string is an address of a family. -/
abbrev InetPton := AddrFamily → List UInt8 → Bool

/-- `sizeof (addrz)`, which is `INET6_ADDRSTRLEN`. -/
def addrzSize : Nat := 46

/-- What `grid_literal_resolve` copies to `addrz`: `none` where it is too long, or where there is
no bracket at its end. -/
def literalCopy (s : List UInt8) (addr addrlen : Nat) : Except AddrFault (Option (List UInt8)) :=
  if addrlen = 0 then do
    let addrz ← readBytes s addr 0
    return some addrz
  else do
    let first ← readByte s addr
    if first = 91 then
      let last ← readByte s (addr + (addrlen - 1))
      if last ≠ 93 then return none
      else
        let n ← sizeT (addrlen - 2)
        let size ← sizeT (n + 1)
        if size > addrzSize then return none
        else
          let addrz ← readBytes s (addr + 1) n
          return some addrz
    else
      let size ← sizeT (addrlen + 1)
      if size > addrzSize then return none
      else
        let addrz ← readBytes s addr addrlen
        return some addrz

/-- Whether a string is an address literal, IPv6 ones being allowed or not. -/
def isLiteral (pton : InetPton) (ipv4only : Bool) (addrz : List UInt8) : Bool :=
  (!ipv4only && pton .inet6 addrz) || pton .inet addrz

/-- `grid_literal_resolve`. -/
def literalResolve (pton : InetPton) (ipv4only : Bool) (s : List UInt8) (addr addrlen : Nat) :
    Except AddrFault Int := do
  match ← literalCopy s addr addrlen with
  | none => return portInval
  | some addrz => return if isLiteral pton ipv4only addrz = true then 0 else portInval

/-- Whether an address is an asterisk. -/
def isAsterisk (s : List UInt8) (addr addrlen : Nat) : Except AddrFault Bool :=
  if addrlen = 1 then (readByte s addr).map (fun c => decide (c = 42)) else .ok false

/-- `grid_iface_resolve`. -/
def ifaceResolve (pton : InetPton) (ipv4only : Bool) (s : List UInt8) (addr addrlen : Nat) :
    Except AddrFault Int := do
  let star ← isAsterisk s addr addrlen
  if star = true then return 0
  else
    let rc ← literalResolve pton ipv4only s addr addrlen
    return if rc = portInval then ifaceNodev else 0

/-- Whether the host portion is neither a hostname nor a literal. -/
def hostRejected (pton : InetPton) (ipv4only : Bool) (s : List UInt8) (addr addrlen : Nat) :
    Except AddrFault Bool := do
  let rc ← dnsCheckHostname s addr addrlen
  if rc < 0 then
    let rc ← literalResolve pton ipv4only s addr addrlen
    return decide (rc < 0)
  else return false

/-- What `grid_ctcp_create` makes of its address: 0, or an error. -/
def ctcpAddress (pton : InetPton) (ipv4only : Bool) (s : List UInt8) : Except AddrFault Int := do
  let semicolon := strchr 59 s
  let hostname : Nat := match semicolon with
    | some i => i + 1
    | none => 0
  match strrchr 58 s with
  | none => return portInval
  | some colon =>
      let portlen ← sizeT (s.length - colon - 1)
      let rc ← portLoop s (colon + 1) 0 portlen
      if rc < 0 then return portInval
      else
        let hostlen ← sizeT (colon - hostname)
        let rejected ← hostRejected pton ipv4only s hostname hostlen
        if rejected = true then return portInval
        else
          match semicolon with
          | none => return 0
          | some i =>
              let rc ← ifaceResolve pton ipv4only s 0 i
              return if rc < 0 then ifaceNodev else 0

/-- What `grid_btcp_create` makes of its address. -/
def btcpAddress (pton : InetPton) (ipv4only : Bool) (s : List UInt8) : Except AddrFault Int := do
  match strrchr 58 s with
  | none => return portInval
  | some colon =>
      let portlen ← sizeT (s.length - (colon + 1))
      let rc ← portLoop s (colon + 1) 0 portlen
      if rc < 0 then return portInval
      else
        let rc ← ifaceResolve pton ipv4only s 0 colon
        return if rc < 0 then ifaceNodev else 0

/-! ## The grammar -/

/-- The value of decimal digits. -/
def decimal (port : List UInt8) : Nat := port.foldl (fun v c => v * 10 + (c.toNat - 48)) 0

/-- A decimal string with a value from 1 to 65535. -/
def IsPort (port : List UInt8) : Prop :=
  (∀ c ∈ port, 48 ≤ c ∧ c ≤ 57) ∧ 1 ≤ decimal port ∧ decimal port ≤ 65535

/-- A label of a hostname. -/
def IsLabel (label : List UInt8) : Prop :=
  1 ≤ label.length ∧ label.length ≤ 63 ∧ ∀ c ∈ label, hostChar c = true

/-- A hostname: labels between dots. -/
structure IsHostname (host : List UInt8) : Prop where
  size : 1 ≤ host.length ∧ host.length ≤ 255
  hyphen : host.head? ≠ some 45
  labels : ∀ label ∈ host.splitOn 46, IsLabel label

/-- A literal, or one in square brackets. -/
def IsBracketed (literal : List UInt8 → Prop) (a : List UInt8) : Prop :=
  literal a ∨ ∃ b, a = 91 :: b ++ [93] ∧ literal b

/-- `[iface ';'] host ':' port`.  The port begins behind the last colon, and the host behind the
first semicolon. -/
def IsConnectAddress (literal : List UInt8 → Prop) (s : List UInt8) : Prop :=
  ∃ front port, s = front ++ 58 :: port ∧ 58 ∉ port ∧ IsPort port ∧
    ((59 ∉ front ∧ (IsHostname front ∨ literal front)) ∨
      ∃ iface host, front = iface ++ 59 :: host ∧ 59 ∉ iface ∧
        (iface = [42] ∨ literal iface) ∧ (IsHostname host ∨ literal host))

/-- `iface ':' port`. -/
def IsBindAddress (literal : List UInt8 → Prop) (s : List UInt8) : Prop :=
  ∃ iface port, s = iface ++ 58 :: port ∧ 58 ∉ port ∧ IsPort port ∧
    (iface = [42] ∨ literal iface)

/-- What is relied on of `inet_pton`: the addresses consist of hexadecimal digits, colons and
dots, and no one is longer than `INET6_ADDRSTRLEN` has room for. -/
structure InetPton.Documented (pton : InetPton) : Prop where
  length : ∀ family a, pton family a = true → a.length < addrzSize
  chars : ∀ family a, pton family a = true → ∀ c ∈ a,
    (48 ≤ c ∧ c ≤ 58) ∨ (65 ≤ c ∧ c ≤ 70) ∨ (97 ≤ c ∧ c ≤ 102) ∨ c = 46

end GridMq.Transports
