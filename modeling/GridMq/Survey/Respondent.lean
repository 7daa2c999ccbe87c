import GridMq.ReqRep.Rep

set_option autoImplicit false

/-!
# The RESPONDENT sockets (`src/protocols/survey/respondent.c`, `xrespondent.c`)

The two files are `rep.c` and `xrep.c` with the names changed: a survey takes the place
of the request, the surveyor that of the requester.
-/

namespace GridMq.Survey

open GridMq.Library GridMq.ReqRep

/-- `struct grid_xrespondent`. -/
abbrev Xrespondent := Xrep

namespace Xrespondent

/-- `grid_xrespondent_send`. -/
def send (self : Xrespondent) (msg : Msg) : Except Abort Xrespondent := Xrep.send self msg

/-- `grid_xrespondent_recv`. -/
def recv (self : Xrespondent) :
    Except Abort (Xrespondent × Option (Nat × List UInt8 × Msg)) :=
  Xrep.recv self

end Xrespondent

/-- `struct grid_respondent`. -/
abbrev Respondent := ReqRep.Rep

/-- The RESPONDENT socket as a transition system. -/
def Respondent.system : System Respondent ReqRep.Rep.Label := ReqRep.Rep.system

end GridMq.Survey
