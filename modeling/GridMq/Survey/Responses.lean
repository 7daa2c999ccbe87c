import GridMq.ReqRep.Conversation
import GridMq.Survey.Questioner
import GridMq.Survey.Respondent

set_option autoImplicit false

/-!
# Surveys and responses

Any number of SURVEYOR and RESPONDENT sockets, joined by links and devices.  A survey goes to every
respondent that is ready; responses come at any time, also to surveys that are over, and still a
user who is handed a response is handed one to the last survey.
-/

namespace GridMq.Survey

open GridMq.Core GridMq.Protocols GridMq.Library GridMq.ReqRep

/-- SURVEYOR and RESPONDENT sockets with devices between them, and the random numbers that they
start from. -/
abbrev network (lastid : Nat → Nat) (key : Lower → Nat) (w : Wiring) :
    Network Party Channel (List UInt8) (Party.State Questioner Xsurveyor)
      (Party.Label Surveyor.Label Surveyor.Answer) :=
  Questioner.asker.network Xsurveyor.outlet lastid key w

/-- The sockets and what they have done. -/
abbrev State := Asker.Joined Questioner Xsurveyor Surveyor.Label Surveyor.Answer

variable {lastid : Nat → Nat} {key : Lower → Nat} {w : Wiring} {s : State}

end GridMq.Survey
