import Toolpath.Arm.Solver
import Toolpath.Joint
import Toolpath.StructureError
import Toolpath.Target

/-!
Robot arms: an analytic solver with axis limits, mounting and payload, and how an arm solves a
target. The axis values of a solution are always in range: a value out of range is reported and
moved to the nearest end of its range, and the planes are those of the moved values.
-/

set_option autoImplicit false
set_option relaxedAutoImplicit false

namespace Toolpath

/-- The result of solving one target with an arm, a mechanism or a whole group. -/
structure Solution (α : Type) where
  joints : List α
  /-- World poses. For a group these are the planes of its mechanisms, then arm base, arm joints and
  tool centre point. -/
  planes : List (Pose α)
  configuration : Configuration
  faults : List Fault
  /-- The world pose of the frame that the target was solved in. -/
  frame : Pose α

structure Arm (α : Type) where
  name : String
  manufacturer : Manufacturer
  solver : Solver α
  joints : List (Joint α)
  /-- Relative to the cell, or to the mechanism that carries the arm. -/
  base : Pose α
  /-- In kilograms. -/
  payload : α

variable {α : Type} [Scalar α]

/-- The first `count` values, missing ones being zero. -/
def resize (count : Nat) (values : List α) : List α :=
  (values.take count).rightpad count 0

namespace Solution

/-- Nothing solved yet. -/
def none : Solution α :=
  ⟨[], [], .empty, [], 1⟩

/-- The last plane: for a group, the tool centre point. -/
def tcp (solution : Solution α) : Pose α :=
  solution.planes.getLastD 1

end Solution

/-- Axis values of an arm as the solver gives them, before they are checked against the ranges. -/
structure ArmPosition (α : Type) where
  joints : List α
  configuration : Configuration
  faults : List Fault

/-- Summed squared angles below this count as the same position. -/
def angleTolerance : α := 1.0e-4

namespace Arm

/-- Lengths and offsets of the links as the solver reads them off the joints. -/
def solverFor (topology : Topology) (joints : List (Joint α)) : Solver α :=
  .ofLinks topology (fun i ↦ (joints[i]?.map Joint.length).getD 0)
    (fun i ↦ (joints[i]?.map Joint.offset).getD 0)

/-- An arm with one joint per axis of its topology. -/
def build (name : String) (manufacturer : Manufacturer) (topology : Topology)
    (joints : List (Joint α)) (base : Pose α) (payload : α) : Except MechanismError (Arm α) :=
  if joints.length = topology.axisCount then
    .ok ⟨name, manufacturer, solverFor topology joints, joints, base, payload⟩
  else .error (.armAxisCount topology joints.length)

def axisCount (arm : Arm α) : Nat :=
  arm.solver.axisCount

/-- The configuration that reproduces the given axis values; undefined near a singular position,
where no analytic branch does. -/
def configurationOf (arm : Arm α) (joints : List α) : Configuration :=
  match (arm.solver.forward joints).getLast? with
  | none => .undefined
  | some flange =>
    match arm.solver.closest? flange joints with
    | none => .undefined
    | some closest =>
      if closest.difference < angleTolerance then closest.configuration else .undefined

/-- The flange pose relative to the arm base that puts the tool on the target. -/
def flangeFor (base frame pose tcp : Pose α) : Pose α :=
  base.inverse * frame * pose * tcp.inverse

/-- The branch for a flange pose: the forced one, else the one nearest to the previous position,
else the branch without flags. -/
def reach (arm : Arm α) (flange : Pose α) (forced : Option Configuration)
    (previous : Option (List α)) : ArmPosition α :=
  match forced, previous with
  | none, some previous =>
    match arm.solver.closest? flange previous with
    | some closest => ⟨closest.joints, closest.configuration, closest.faults⟩
    | none => ⟨[], .empty, []⟩
  | _, _ =>
    let configuration := forced.getD .empty
    let redundancy := (previous.map arm.solver.redundancy).getD 0
    let branch := arm.solver.inverse flange configuration redundancy
    let joints := match previous with
      | some previous => Angle.follow branch.joints previous
      | none => branch.joints
    ⟨joints, configuration, branch.faults⟩

/-- The position given by axis values. A wrong count of values is a fault; missing ones are zero. -/
def place (arm : Arm α) (values : List α) : ArmPosition α :=
  let joints := if values.length = arm.axisCount then values else resize arm.axisCount values
  { joints
    configuration := arm.configurationOf joints
    faults := if values.length = arm.axisCount then []
      else [.jointCount values.length arm.axisCount] }

def position (arm : Arm α) (target : Target α) (base frame : Pose α)
    (previous : Option (List α)) : ArmPosition α :=
  match target.goal with
  | .cartesian pose forced _ => arm.reach (flangeFor base frame pose target.tool.tcp) forced previous
  | .joints values => arm.place values

/-- Solves a target in the world frame `frame` for the arm mounted on `parent`. The planes are the
base and the joint frames, without the tool centre point. -/
def solve (arm : Arm α) (target : Target α) (frame : Pose α) (previous : Option (List α))
    (parent : Pose α) : Solution α :=
  let base := parent * arm.base
  let position := arm.position target base frame previous
  let joints := limitAll arm.joints position.joints
  { joints
    planes := base :: (arm.solver.forward joints).map (base * ·)
    configuration := position.configuration
    faults := position.faults ++ (outOfRange arm.joints position.joints).map .axisOutOfRange
    frame }

end Arm

end Toolpath
