import GridMq.Utils.Wire

set_option autoImplicit false

/-!
# Messages (`src/utils/msg.h`)

A message is its protocol header and its body.  The third part, `hdrs`, is not
used by any protocol and is left out.  On the wire the body follows the header.
-/

namespace GridMq

/-- `struct grid_msg`. -/
structure Msg where
  sphdr : List UInt8 := []
  body : List UInt8 := []
  deriving DecidableEq, Repr

/-- The bytes of a message as a transport sends them. -/
def Msg.wire (msg : Msg) : List UInt8 := msg.sphdr ++ msg.body

end GridMq
