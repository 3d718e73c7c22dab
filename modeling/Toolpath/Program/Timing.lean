import Toolpath.Program.Step

/-!
How long a short motion takes. Every group is limited by the speed of its tool centre point, or by a
given duration instead, and by the speed of each of its axes; external axes are also capped by the
speed attribute of the target. The slowest limit leads, the first one where several are equal.
-/

set_option autoImplicit false
set_option relaxedAutoImplicit false

namespace Toolpath

/-- The time a group needs for one substep. -/
structure Pace (α : Type) where
  time : α
  /-- The time needed if only the axes limit the motion. -/
  axisTime : α
  leading : SpeedLimit

variable {α : Type} [Scalar α]

/-- The time to travel a distance; a speed that is not positive is no limit. -/
def travelTime (distance speed : α) : α :=
  if 0 < speed then distance / speed else 0

/-- The limits of the tool centre point between two planes of one frame. -/
def tcpLimits (speed : Speed α) (divisions : Nat) (start stop : Pose α) : List (α × SpeedLimit) :=
  if 0 < speed.time then [(speed.time / (divisions : α), .time)]
  else
    [(travelTime (start.distance stop) speed.translation, .translation),
      (travelTime (start.turn stop) speed.rotation, .rotation)]

namespace Group

/-- The speed that limits an axis of the group, and the name of the limit. -/
def axisLimit (group : Group α) (speed : Speed α) (place : Nat) (joint : Joint α) :
    α × SpeedLimit :=
  if place < group.arm.axisCount then (joint.maxSpeed, .axis place)
  else
    let cap := if joint.isPrismatic then speed.translationExternal else speed.rotationExternal
    (Scalar.smaller joint.maxSpeed cap, .external (place - group.arm.axisCount))

/-- The limits of the axes between two positions. -/
def axisLimits (group : Group α) (speed : Speed α) (start stop : List α) :
    List (α × SpeedLimit) :=
  (group.joints.zip (stop.zip start)).zipIdx.map fun ((joint, b, a), place) ↦
    let (maxSpeed, limit) := group.axisLimit speed place joint
    (travelTime (Scalar.abs (b - a)) maxSpeed, limit)

/-- The slowest limit. -/
def slowest (limits : List (α × SpeedLimit)) : α × SpeedLimit :=
  limits.foldl (fun best next ↦ if best.1 < next.1 then next else best) (0, .translation)

/-- The pace of a substep between two waypoints of the group. -/
def pace (group : Group α) (previous current : Waypoint α) (divisions : Nat) : Pace α :=
  let speed := current.target.speed
  let axes := group.axisLimits speed previous.solution.joints current.solution.joints
  let tcp := tcpLimits speed divisions (current.previousPlane previous) current.plane
  let (time, leading) := slowest (tcp ++ axes)
  ⟨time, Scalar.maximum (axes.map Prod.fst), leading⟩

/-- The limits that a group can meet, in the order in which they are reported. -/
def limits (group : Group α) : List SpeedLimit :=
  [.translation, .rotation] ++ (List.range group.arm.axisCount).map .axis ++
    (List.range group.externalCount).map .external

end Group

namespace Cell

/-- The paces of all groups. -/
def paces (cell : Cell α) (previous current : Step α) (divisions : Nat) : List (Pace α) :=
  (cell.groups.zip (previous.waypoints.zip current.waypoints)).map fun (group, before, waypoint) ↦
    group.pace before waypoint divisions

end Cell

namespace Pace

/-- The slowest pace among those of one group, the first one where several are equal. -/
def slowest? (paces : List (Pace α)) : Option (Pace α) :=
  paces.foldl (fun best next ↦
    match best with
    | none => some next
    | some held => if held.time < next.time then some next else some held) none

/-- Whether a limit determined the time, other than a given duration. -/
def isLimitedBy (pace : Pace α) (limit : SpeedLimit) : Bool :=
  0 < pace.time && pace.leading == limit

end Pace

end Toolpath
