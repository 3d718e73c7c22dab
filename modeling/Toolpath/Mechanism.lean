import Toolpath.Arm.Basic

/-!
External mechanisms, moved in step with an arm: linear tracks, rotary positioners and custom chains.
The planes of a solved mechanism are its base and then one plane per axis.
-/

set_option autoImplicit false
set_option relaxedAutoImplicit false

namespace Toolpath

inductive MechanismKind (α : Type) where
  /-- Up to three linear axes along X, Y and Z. -/
  | track
  /-- Rotary axes, each about the Z axis of its pose relative to the previous axis. -/
  | positioner (axes : List (Pose α))
  /-- Any axes, each along or about the Z axis of its pose relative to the previous axis. -/
  | custom (axes : List (Pose α))

structure Mechanism (α : Type) where
  name : String
  joints : List (Joint α)
  /-- Relative to the cell. -/
  base : Pose α
  /-- Whether the arm of the group is mounted on the last axis. -/
  movesRobot : Bool
  kind : MechanismKind α

variable {α : Type} [Scalar α]

/-- The motion of one axis of a chain. -/
def Joint.motion (joint : Joint α) (value : α) : Pose α :=
  match joint.kind with
  | .revolute => .ofRotation (.aboutZ value)
  | .prismatic => .translation 0 0 value

namespace Mechanism

def buildTrack (name : String) (joints : List (Joint α)) (base : Pose α) (movesRobot : Bool) :
    Except MechanismError (Mechanism α) :=
  if joints.length = 0 ∨ 3 < joints.length then .error (.trackAxisCount name joints.length)
  else if joints.all Joint.isPrismatic then .ok ⟨name, joints, base, movesRobot, .track⟩
  else .error (.trackAxisKind name)

def buildPositioner (name : String) (joints : List (Joint α)) (axes : List (Pose α))
    (base : Pose α) (movesRobot : Bool) : Except MechanismError (Mechanism α) :=
  if joints.length = 0 ∨ joints.length ≠ axes.length then
    .error (.positionerAxes name joints.length axes.length)
  else if joints.any Joint.isPrismatic then .error (.positionerAxisKind name)
  else .ok ⟨name, joints, base, movesRobot, .positioner axes⟩

def buildCustom (name : String) (joints : List (Joint α)) (axes : List (Pose α)) (base : Pose α)
    (movesRobot : Bool) : Except MechanismError (Mechanism α) :=
  if joints.length ≠ axes.length then .error (.chainAxes name joints.length axes.length)
  else .ok ⟨name, joints, base, movesRobot, .custom axes⟩

def axisCount (mechanism : Mechanism α) : Nat :=
  mechanism.joints.length

/-- The carriages of a track: each axis moves on the one before it. -/
def carriages : List α → List (Pose α)
  | [] => []
  | [x] => [.translation x 0 0]
  | [x, y] => [.translation x 0 0, .translation x y 0]
  | x :: y :: z :: _ => [.translation x 0 0, .translation x y 0, .translation x y z]

/-- The planes of a chain after the pose `start`. -/
def chainPlanes (start : Pose α) : List (Pose α) → List (Joint α) → List α → List (Pose α)
  | axis :: axes, joint :: joints, value :: values =>
    let pose := start * axis * joint.motion value
    pose :: chainPlanes pose axes joints values
  | _, _, _ => []

/-- The planes after the base for axis values in range. -/
def axisPlanes (mechanism : Mechanism α) (base : Pose α) (values : List α) : List (Pose α) :=
  match mechanism.kind with
  | .track => (carriages values).map (base * ·)
  | .positioner axes => chainPlanes base axes mechanism.joints values
  | .custom axes => chainPlanes base axes mechanism.joints values

/-- Solves the mechanism on `parent`. Missing values are zero, values out of range are reported and
moved to the nearest end of the range. -/
def solve (mechanism : Mechanism α) (values : List α) (parent : Pose α) : Solution α :=
  let given := resize mechanism.axisCount values
  let joints := limitAll mechanism.joints given
  let base := parent * mechanism.base
  { joints
    planes := base :: mechanism.axisPlanes base joints
    configuration := .empty
    faults := (outOfRange mechanism.joints given).map fun axis ↦
      .mechanismOutOfRange axis mechanism.name
    frame := 1 }

end Mechanism

end Toolpath
