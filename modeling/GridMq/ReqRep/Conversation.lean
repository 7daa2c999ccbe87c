import GridMq.ReqRep.Requester

set_option autoImplicit false

/-!
# Requests and replies

Any number of REQ and REP sockets, joined by links and devices that keep the order of the messages
in both directions and may be cut at any time.  Requests are sent again, replies come late or
never, and the sockets balance the requests among the links; still a user who is handed a reply is
handed the reply to the last request.
-/

namespace GridMq.ReqRep

open GridMq.Core GridMq.Library GridMq.Devices

/-- REQ and REP sockets with devices between them, and the random numbers that they start from. -/
abbrev network (lastid : Nat → Nat) (key : Lower → Nat) (w : Wiring) :
    Network Party Channel (List UInt8) (Party.State Requester Xreq)
      (Party.Label Req.Label Req.Answer) :=
  Requester.asker.network Xreq.outlet lastid key w

/-- The sockets and what they have done. -/
abbrev State := Asker.Joined Requester Xreq Req.Label Req.Answer

variable {lastid : Nat → Nat} {key : Lower → Nat} {w : Wiring} {s : State}

/-- What `poll` reports. -/
def reported (onward back : Bool × Bool) : Way → Bool × Bool
  | .onward => onward
  | .back => back

end GridMq.ReqRep
