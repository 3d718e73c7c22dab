import Toolpath.Cell.Coupling
import Toolpath.Geometry.Interpolation

/-!
Steps of a program. A waypoint is the target of one group with its solution; a step holds one
waypoint per group, in the order of the groups, and the time when all of them are reached. The
authored targets of a program and the keyframes of its timeline are both steps.

`between` gives the targets between two steps: a linear motion interpolates the tool centre point in
the coordinates of its frame, every other motion interpolates the arm axes, and external axes are
always interpolated one by one.
-/

set_option autoImplicit false
set_option relaxedAutoImplicit false

namespace Toolpath

/-- What determines how long a motion takes. Axes are counted from zero here and from one in the
text. -/
inductive SpeedLimit where
  | translation
  | rotation
  | axis (number : Nat)
  | external (number : Nat)
  /-- The duration is given. -/
  | time
  deriving DecidableEq, Repr

structure Waypoint (α : Type) where
  target : Target α
  solution : Solution α
  changesConfiguration : Bool
  /-- What limited the motion to this target. -/
  leading : Option SpeedLimit

structure Step (α : Type) where
  /-- The number of the target, also of those keyframes that lead to it. -/
  index : Nat
  waypoints : List (Waypoint α)
  /-- Seconds from the start of the program. -/
  totalTime : α
  /-- Seconds from the step before. -/
  deltaTime : α
  /-- How long the motion takes if only the axes limit it. -/
  minTime : α
  /-- How many substeps the motion is solved in. -/
  divisions : Nat

namespace SpeedLimit

def toText : SpeedLimit → String
  | translation => "translation speed"
  | rotation => "rotation speed"
  | axis number => "axis " ++ toString (number + 1) ++ " speed"
  | external number => "external axis " ++ toString (number + 1) ++ " speed"
  | time => "programmed time"

end SpeedLimit

variable {α : Type} [Scalar α]

namespace Cell

/-- The count of arm axes of a group, zero past the last group. -/
def armAxisCount (cell : Cell α) (group : Nat) : Nat :=
  (cell.groups[group]?.map fun g ↦ g.arm.axisCount).getD 0

/-- The count of external axes of a group, zero past the last group. -/
def externalCount (cell : Cell α) (group : Nat) : Nat :=
  (cell.groups[group]?.map Group.externalCount).getD 0

end Cell

namespace Waypoint

/-- A target that is not solved yet. -/
def ofTarget (target : Target α) : Waypoint α :=
  ⟨target, .none, false, none⟩

/-- The tool centre point in the world. -/
def worldPlane (waypoint : Waypoint α) : Pose α :=
  waypoint.solution.tcp

/-- The tool centre point in the frame of the target. -/
def plane (waypoint : Waypoint α) : Pose α :=
  match waypoint.target.goal with
  | .cartesian pose _ _ => pose
  | .joints _ => waypoint.solution.frame.inverse * waypoint.solution.tcp

def sharesFrame (waypoint previous : Waypoint α) : Bool :=
  waypoint.target.frame.label.key == previous.target.frame.label.key

/-- The tool centre point of the previous waypoint in the frame of this target. A frame that both
share is taken where it was then. -/
def previousPlane (waypoint previous : Waypoint α) : Pose α :=
  let frame := if waypoint.sharesFrame previous then previous.solution.frame
    else waypoint.solution.frame
  frame.inverse * previous.solution.tcp

/-- The target at a moment of the motion from the previous waypoint. -/
def between (waypoint previous : Waypoint α) (armAxes : Nat) (m : Moment α) : Target α :=
  let stop := waypoint.solution.joints
  let start := previous.solution.joints
  let external := m.interpolateAll (start.drop armAxes) (stop.drop armAxes)
  let moved := match waypoint.target.goal with
    | .cartesian pose _ .linear =>
      let between := m.interpolatePose (waypoint.previousPlane previous) pose
      { waypoint.target with goal := .cartesian between none .linear }
    | _ => waypoint.target.toJoints (m.interpolateAll (start.take armAxes) (stop.take armAxes))
  moved.withExternal external

end Waypoint

namespace Step

def ofTargets (index : Nat) (targets : List (Target α)) : Step α :=
  ⟨index, targets.map .ofTarget, 0, 0, 0, 0⟩

def targets (step : Step α) : List (Target α) :=
  step.waypoints.map Waypoint.target

/-- The axis values of every group. -/
def joints (step : Step α) : List (List α) :=
  step.waypoints.map fun waypoint ↦ waypoint.solution.joints

def solutions (step : Step α) : List (Solution α) :=
  step.waypoints.map Waypoint.solution

/-- Replaces the target of every group, keeping the solutions. -/
def mapTargets (step : Step α) (change : Nat → Target α → Target α) : Step α :=
  { step with
    waypoints := step.waypoints.zipIdx.map fun (waypoint, group) ↦
      { waypoint with target := change group waypoint.target } }

def withTargets (step : Step α) (targets : List (Target α)) : Step α :=
  { step with
    waypoints := List.zipWith (fun waypoint target ↦ { waypoint with target }) step.waypoints
      targets }

/-- Stores solutions and marks the groups whose configuration differs from the step before. -/
def withSolutions (step : Step α) (solutions : List (Solution α)) (previous : Option (Step α)) :
    Step α :=
  { step with
    waypoints := (step.waypoints.zip solutions).zipIdx.map fun ((waypoint, solution), group) ↦
      let before := (previous.bind (·.waypoints[group]?)).map (·.solution.configuration)
      { waypoint with
        solution
        changesConfiguration := (before.map (· != solution.configuration)).getD false } }

/-- The targets of all groups at a moment of the motion from the previous step. -/
def between (step previous : Step α) (cell : Cell α) (m : Moment α) : List (Target α) :=
  (step.waypoints.zip previous.waypoints).zipIdx.map fun ((waypoint, before), group) ↦
    waypoint.between before (cell.armAxisCount group) m

/-- The solver faults of all groups, with the group. -/
def faults (step : Step α) : List (Nat × Fault) :=
  step.waypoints.zipIdx.flatMap fun (waypoint, group) ↦
    waypoint.solution.faults.map fun fault ↦ (group, fault)

def instructions (step : Step α) : List (Instruction α) :=
  step.waypoints.flatMap fun waypoint ↦ waypoint.target.instructions

/-- The longest dwell over the instructions of all groups. -/
def dwell (step : Step α) : α :=
  Scalar.maximum (step.instructions.filterMap Instruction.waitSeconds?)

end Step

end Toolpath
