import Toolpath.Arm.Spherical
import Toolpath.Arm.Offset
import Toolpath.Arm.Redundant

/-!
The analytic solvers, one per wrist topology, behind one interface: `forward` gives the poses of the
joint frames, `inverse` one analytic branch of a flange pose. All poses are relative to the arm
base. `closest?` solves the eight branches and keeps the one nearest to a previous position, the
first one of equally near branches.
-/

set_option autoImplicit false
set_option relaxedAutoImplicit false

namespace Toolpath

inductive Topology where
  | sphericalWrist
  | offsetWrist
  | redundant
  deriving DecidableEq, Repr

namespace Topology

def toText : Topology → String
  | sphericalWrist => "SphericalWrist"
  | offsetWrist => "OffsetWrist"
  | redundant => "Redundant"

def axisCount : Topology → Nat
  | sphericalWrist => 6
  | offsetWrist => 6
  | redundant => 7

end Topology

inductive Solver (α : Type) where
  | sphericalWrist (arm : SphericalWrist α)
  | offsetWrist (arm : OffsetWrist α)
  | redundant (arm : RedundantArm α)

/-- The branch nearest to a previous position, moved next to it by whole turns. -/
structure ClosestBranch (α : Type) where
  joints : List α
  configuration : Configuration
  faults : List Fault
  /-- The summed squared shortest angles to the previous position. -/
  difference : α

namespace Solver

variable {α : Type} [Scalar α]

def topology : Solver α → Topology
  | sphericalWrist _ => .sphericalWrist
  | offsetWrist _ => .offsetWrist
  | redundant _ => .redundant

def axisCount (solver : Solver α) : Nat :=
  solver.topology.axisCount

/-- The solver of a topology for the given lengths and offsets of the links. -/
def ofLinks (topology : Topology) (lengths offsets : Nat → α) : Solver α :=
  match topology with
  | .sphericalWrist => sphericalWrist ⟨fun i ↦ lengths i, fun i ↦ offsets i⟩
  | .offsetWrist => offsetWrist ⟨fun i ↦ lengths i, fun i ↦ offsets i⟩
  | .redundant => redundant ⟨fun i ↦ offsets i⟩

def forward : Solver α → List α → List (Pose α)
  | sphericalWrist arm, joints => arm.forward joints
  | offsetWrist arm, joints => arm.forward joints
  | redundant arm, joints => arm.forward joints

/-- One analytic branch. Only arms with more than six axes read the redundancy. The axis values are
reduced into `(-π, π]`. -/
def inverse (solver : Solver α) (flange : Pose α) (configuration : Configuration)
    (redundancy : α) : Branch α :=
  match solver with
  | sphericalWrist arm => arm.inverse flange configuration
  | offsetWrist arm => arm.inverse flange configuration
  | redundant arm => arm.inverse flange configuration redundancy

/-- The redundancy that keeps the elbow where it is in the given position. -/
def redundancy (solver : Solver α) (position : List α) : α :=
  match solver with
  | redundant _ => position.getD 2 0
  | _ => 0

/-- The analytic branches in the order of their numbers. -/
def branches : List Configuration :=
  (List.range 8).map .ofBranch

/-- A branch as a candidate for following a path from `previous`. -/
def follow (solver : Solver α) (flange : Pose α) (previous : List α)
    (configuration : Configuration) : ClosestBranch α :=
  let branch := solver.inverse flange configuration (solver.redundancy previous)
  let joints := Angle.follow branch.joints previous
  ⟨joints, configuration, branch.faults, Angle.squaredDistance joints previous⟩

/-- Keeps the nearer candidate, the earlier one where both are equally near. The first candidate is
taken if its difference is a finite number. -/
def nearer (best : Option (ClosestBranch α)) (candidate : ClosestBranch α) :
    Option (ClosestBranch α) :=
  match best with
  | none => if Scalar.isFinite candidate.difference then some candidate else none
  | some held => if candidate.difference < held.difference then some candidate else some held

/-- The branch nearest to `previous`; none where no branch can be compared with it. -/
def closest? (solver : Solver α) (flange : Pose α) (previous : List α) :
    Option (ClosestBranch α) :=
  (branches.map (solver.follow flange previous)).foldl nearer none

end Solver

end Toolpath
