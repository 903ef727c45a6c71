import Mathlib.Data.List.Find
import Ros1Tools.Recording.Agreement
import Ros1Tools.Recording.Topics

/-!
# A slash at the end of a namespace

The namespace of a robot is read in three places: in front of the topics of the robot, in the
default topics of a robot that xsim simulates, and as the name of the rigid body of one that
Gazebo simulates.  The first two drop slashes at its end and the third does not, so a slash
there is refused as a part of the name.  Apart from that place, it does not matter.
-/

namespace Ros1Tools.Recording

open Lib Lib.Python

section Robot

variable {members : Members} {name : String}

variable (host : Host) (simulator : Value)

end Robot

/-! ## Refusals -/

section Refused

variable {members : Members} {name : String}

variable (host : Host)

end Refused

/-! ## Selections -/

/-- The robot is selected, behind the robots in front of it. -/
def Parameters.selects (p : Parameters) (front : List Value) (robot : Value) : Bool :=
  let chosen := do
    let selection ← selectRobots p.slotIds.1.isEmpty p.slotIds.1 front
    chooses p.slotIds.1.isEmpty selection.2 robot
  chosen.toOption.getD false

section Selection

variable {p : Parameters} {front : List Value} {robot robot' : Value}

end Selection

section Resolve

variable (host : Host) (p : Parameters) (mode simulator : Value)

variable {members : Members} {name : String} (before after : List Value) (left : List String)

end Resolve

/-! ## Documents -/

end Ros1Tools.Recording
