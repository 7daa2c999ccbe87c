import GridMq.Utils.Err
import Mathlib.Algebra.Group.Nat.Defs
import Mathlib.Data.List.Basic

set_option autoImplicit false

/-!
# Base64 (`src/transports/utils/base64.c`)

Both functions collect bits in a word, and write what they have as soon as it is enough.  They
are given a buffer, and a write that is not within it is an error of its own, as is an index that
is not within a table.

The numbers of the source are 32 bits wide: an input that is longer has its loop begin again.
-/

namespace GridMq.Transports.Base64

/-! ## The buffers and the tables -/

/-- An access that is not within what it is made to. -/
inductive Overrun where
  | table (index : Int)
  | buffer (index : Nat)
  deriving DecidableEq, Repr

/-- What ends a function early. -/
inductive Stop where
  | overrun (o : Overrun)
  /-- `return -ENOBUFS`, with the buffer -/
  | enobufs (out : List UInt8)
  deriving DecidableEq, Repr

/-- The variables of the functions, without the character at hand. -/
structure Coding where
  ii : Nat := 0
  io : Nat := 0
  rem : Nat := 0
  v : BitVec 32 := 0
  out : List UInt8
  deriving DecidableEq, Repr

/-- `ii++`, `io++`. -/
def increment (n : Nat) : Nat := (n + 1) % 2 ^ 32

/-- An element of a table. -/
def tableAt (table : List UInt8) (index : Int) : Except Stop UInt8 :=
  if index < 0 then .error (.overrun (.table index))
  else
    match table[index.toNat]? with
    | some ch => .ok ch
    | none => .error (.overrun (.table index))

/-- A write to a buffer. -/
def put (out : List UInt8) (index : Nat) (ch : UInt8) : Except Stop (List UInt8) :=
  if index < out.length then .ok (out.set index ch) else .error (.overrun (.buffer index))

/-- `if (io >= out_len) return -ENOBUFS; out [io++] = ch;` -/
def Coding.emit (self : Coding) (ch : UInt8) : Except Stop Coding :=
  if self.io ≥ self.out.length then .error (.enobufs self.out)
  else do
    let out ← put self.out self.io ch
    return { self with out := out, io := increment self.io }

/-- `ENOBUFS`. -/
def enobufs : Int := 105

/-- `return io`, or the return before. -/
def returned (r : Except Stop Coding) : Except Overrun (Int × List UInt8) :=
  match r with
  | .ok s => .ok ((BitVec.ofNat 32 s.io).toInt, s.out)
  | .error (.enobufs out) => .ok (-enobufs, out)
  | .error (.overrun o) => .error o

/-! ## Decoding -/

/-- `DECODEMAP`. -/
def decodeMap : List UInt8 :=
  [0xFF, 0xFF, 0xFF, 0xFF, 0xFF, 0xFF, 0xFF, 0xFF, 0xFF, 0xFF, 0xFF, 0xFF, 0xFF, 0xFF, 0xFF, 0xFF,
   0xFF, 0xFF, 0xFF, 0xFF, 0xFF, 0xFF, 0xFF, 0xFF, 0xFF, 0xFF, 0xFF, 0xFF, 0xFF, 0xFF, 0xFF, 0xFF,
   0xFF, 0xFF, 0xFF, 0xFF, 0xFF, 0xFF, 0xFF, 0xFF, 0xFF, 0xFF, 0xFF, 0x3E, 0xFF, 0xFF, 0xFF, 0x3F,
   0x34, 0x35, 0x36, 0x37, 0x38, 0x39, 0x3A, 0x3B, 0x3C, 0x3D, 0xFF, 0xFF, 0xFF, 0x3E, 0xFF, 0xFF,
   0xFF, 0x00, 0x01, 0x02, 0x03, 0x04, 0x05, 0x06, 0x07, 0x08, 0x09, 0x0A, 0x0B, 0x0C, 0x0D, 0x0E,
   0x0F, 0x10, 0x11, 0x12, 0x13, 0x14, 0x15, 0x16, 0x17, 0x18, 0x19, 0xFF, 0xFF, 0xFF, 0xFF, 0xFF,
   0xFF, 0x1A, 0x1B, 0x1C, 0x1D, 0x1E, 0x1F, 0x20, 0x21, 0x22, 0x23, 0x24, 0x25, 0x26, 0x27, 0x28,
   0x29, 0x2A, 0x2B, 0x2C, 0x2D, 0x2E, 0x2F, 0x30, 0x31, 0x32, 0x33, 0xFF, 0xFF, 0xFF, 0xFF, 0xFF]
  ++ List.replicate 128 0xFF

/-- `isspace` of a `char`, in the locale a program starts in. -/
def isspace (ch : UInt8) : Bool := ch == 0x20 || (0x09 ≤ ch && ch ≤ 0x0d)

/-- The character `=`. -/
def pad : UInt8 := 0x3d

/-- How the loop goes on after a character. -/
inductive Flow where
  | next (s : Coding)
  | done (s : Coding)
  deriving DecidableEq, Repr

/-- The body of the loop of `grid_base64_decode`.  A `char` has a sign. -/
def Coding.decodeChar (self : Coding) (ch : UInt8) : Except Stop Flow :=
  if isspace ch then .ok (.next self)
  else if ch = pad then .ok (.done self)
  else do
    let value ← tableAt decodeMap ch.toInt8.toInt
    if value = 0xFF then return .done self
    else
      let s := { self with
        v := self.v <<< 6 ||| value.toBitVec.setWidth 32, rem := self.rem + 6 }
      if s.rem ≥ 8 then
        let s := { s with rem := s.rem - 8 }
        let s ← s.emit (UInt8.ofBitVec ((s.v >>> s.rem &&& 255).setWidth 8))
        return .next s
      else return .next s

/-- The loop, with a bound on its turns. -/
def decodeLoop (input : List UInt8) : Nat → Coding → Option (Except Stop Coding)
  | 0, _ => none
  | fuel + 1, s =>
      match input[s.ii]? with
      | none => some (.ok s)
      | some ch =>
          match s.decodeChar ch with
          | .error stop => some (.error stop)
          | .ok (.done s) => some (.ok s)
          | .ok (.next s) => decodeLoop input fuel { s with ii := increment s.ii }

/-- What is behind the loop. -/
def Coding.decodeEnd (self : Coding) : Except Stop Coding :=
  if self.rem ≥ 8 then
    let s := { self with rem := self.rem - 8 }
    s.emit (UInt8.ofBitVec ((s.v >>> s.rem &&& 255).setWidth 8))
  else .ok self

/-- `grid_base64_decode`. -/
def decode (fuel : Nat) (input out : List UInt8) : Option (Except Overrun (Int × List UInt8)) :=
  (decodeLoop input fuel { out := out }).map fun r => returned (r >>= Coding.decodeEnd)

/-! ## Encoding -/

/-- `ENCODEMAP`. -/
def encodeMap : List UInt8 :=
  [0x41, 0x42, 0x43, 0x44, 0x45, 0x46, 0x47, 0x48, 0x49, 0x4A, 0x4B, 0x4C, 0x4D, 0x4E, 0x4F, 0x50,
   0x51, 0x52, 0x53, 0x54, 0x55, 0x56, 0x57, 0x58, 0x59, 0x5A, 0x61, 0x62, 0x63, 0x64, 0x65, 0x66,
   0x67, 0x68, 0x69, 0x6A, 0x6B, 0x6C, 0x6D, 0x6E, 0x6F, 0x70, 0x71, 0x72, 0x73, 0x74, 0x75, 0x76,
   0x77, 0x78, 0x79, 0x7A, 0x30, 0x31, 0x32, 0x33, 0x34, 0x35, 0x36, 0x37, 0x38, 0x39, 0x2B, 0x2F]

/-- A character of the encoding is written. -/
def Coding.emitDigit (self : Coding) (word : BitVec 32) : Except Stop Coding := do
  let ch ← tableAt encodeMap (word &&& 63).toNat
  self.emit ch

/-- `while (rem >= 6)`, with a bound on its turns. -/
def Coding.encodeGroups : Nat → Coding → Except Stop Coding
  | 0, s => .ok s
  | turns + 1, s =>
      if s.rem ≥ 6 then do
        let s := { s with rem := s.rem - 6 }
        let s ← s.emitDigit (s.v >>> s.rem)
        encodeGroups turns s
      else .ok s

/-- The body of the loop of `grid_base64_encode`. -/
def Coding.encodeByte (self : Coding) (ch : UInt8) : Except Stop Coding :=
  let s := { self with v := self.v <<< 8 ||| ch.toBitVec.setWidth 32, rem := self.rem + 8 }
  s.encodeGroups s.rem

/-- The loop, with a bound on its turns. -/
def encodeLoop (input : List UInt8) : Nat → Coding → Option (Except Stop Coding)
  | 0, _ => none
  | fuel + 1, s =>
      match input[s.ii]? with
      | none => some (.ok s)
      | some ch =>
          match s.encodeByte ch with
          | .error stop => some (.error stop)
          | .ok s => encodeLoop input fuel { s with ii := increment s.ii }

/-- `while (io & 3)`, with a bound on its turns. -/
def Coding.encodePad : Nat → Coding → Except Stop Coding
  | 0, s => .ok s
  | turns + 1, s =>
      if s.io &&& 3 ≠ 0 then do
        let s ← s.emit pad
        encodePad turns s
      else .ok s

/-- The zero at the end, which `io` does not count. -/
def Coding.terminate (self : Coding) : Except Stop Coding :=
  if self.io ≥ self.out.length then .error (.enobufs self.out)
  else do
    let out ← put self.out self.io 0
    return { self with out := out }

/-- `if (rem)`: the bits that are left are written. -/
def Coding.encodeRest (self : Coding) : Except Stop Coding :=
  if self.rem ≠ 0 then
    let s := { self with v := self.v <<< (6 - self.rem) }
    s.emitDigit s.v
  else .ok self

/-- What is behind the loop. -/
def Coding.encodeEnd (self : Coding) : Except Stop Coding := do
  let s ← self.encodeRest
  let s ← s.encodePad 3
  s.terminate

/-- `grid_base64_encode`. -/
def encode (fuel : Nat) (input out : List UInt8) : Option (Except Overrun (Int × List UInt8)) :=
  (encodeLoop input fuel { out := out }).map fun r => returned (r >>= Coding.encodeEnd)

end GridMq.Transports.Base64
